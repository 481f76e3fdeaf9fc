import Nlink.Foundation.Effect

namespace Nlink.Network

/-!
# Names of interfaces

What a name must be for a request, and the errors of requests about interfaces.
-/

inductive Error where
  /-- `IfError::InvalidName`. -/
  | interface (message : String)
  | interfaceNotFound (name : String)
  | qdiscNotFound (kind interface : String)
  | kernel (errno : Nat)
  | kernelWithContext (operation : String) (errno : Nat)

namespace Error

/-- Only errors of the kernel take a context. -/
def withContext (operation : String) : Error → Error
  | .kernel errno => .kernelWithContext operation errno
  | other => other

end Error

def IFNAMSIZ : Nat := 16

/-- `char::is_whitespace`: the property `White_Space`. -/
def isWhitespace (c : Char) : Bool :=
  (0x09 ≤ c.toNat && c.toNat ≤ 0x0D) ||
    c.toNat ∈ [0x20, 0x85, 0xA0, 0x1680, 0x2028, 0x2029, 0x202F, 0x205F, 0x3000] ||
    (0x2000 ≤ c.toNat && c.toNat ≤ 0x200A)

/-- `ifname::validate`: what is wrong with a name. -/
def validate (name : String) : Option Error :=
  if name.isEmpty then
    some (.interface "empty name")
  else if name.utf8ByteSize ≥ IFNAMSIZ then
    some (.interface "name too long (max 15 chars)")
  else if name.toList.any fun c => c = '/' || c = Char.ofNat 0 then
    some (.interface "name contains invalid characters")
  else if name.toList.any isWhitespace then
    some (.interface "name contains whitespace")
  else
    none

end Nlink.Network
