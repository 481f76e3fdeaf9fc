import Nlink.Foundation.Digits
import Nlink.WireguardConfig

namespace Nlink.Wireguard

open Foundation Foundation.Text Foundation.AddressText Netlink Network

/-!
# What the parsers of configuration files share

There are two of them: that of the `wg` program and that of the library.  Both
read the texts of addresses and numbers as the standard library does.
-/

/-- The section of a file that a line stands in. -/
inductive Section where
  | none
  | interface
  | peer
  deriving DecidableEq

/-- `IpAddr::is_ipv4`. -/
def isIpv4 : IpAddr → Bool
  | .v4 _ => true
  | .v6 _ => false

/-- `IpAddr::from_str`. -/
def parseIpAddr (text : List Char) : Option IpAddr :=
  parseWith
    (fun text =>
      match readIpv4Addr text with
      | some (bits, text) => some (.v4 bits, text)
      | none =>
          match readIpv6Addr text with
          | some (bits, text) => some (.v6 bits, text)
          | none => none)
    text

def showIpAddr : IpAddr → String
  | .v4 bits => String.ofList (showIpv4 bits)
  | .v6 bits => String.ofList (showIpv6 bits)

/-- `SocketAddrV4`, as it stands in a text. -/
def readSocketAddrV4 (text : List Char) : Option (SocketAddr × List Char) := do
  let (ip, text) ← readIpv4Addr text
  let (port, text) ← readPort text
  return (.v4 ip port, text)

/-- `SocketAddrV6`, as it stands in a text. -/
def readSocketAddrV6 (text : List Char) : Option (SocketAddr × List Char) := do
  let (_, text) ← readGivenChar '[' text
  let (ip, text) ← readIpv6Addr text
  let (scopeId, text) := (readScopeId text).getD (0, text)
  let (_, text) ← readGivenChar ']' text
  let (port, text) ← readPort text
  return (.v6 ip port 0 scopeId, text)

/-- `SocketAddr::from_str`. -/
def parseSocketAddr (text : List Char) : Option SocketAddr :=
  parseWith (fun text => (readSocketAddrV4 text).or (readSocketAddrV6 text)) text

/-- The number of a firewall mark: decimal, hexadecimal after `0x`, or `off`. -/
def fwmarkValue (value : List Char) : Except ParseIntError Nat :=
  if eqIgnoreAsciiCase value "off".toList then
    .ok 0
  else
    match (stripPrefix "0x".toList value).or
        (stripPrefix "0X".toList value) with
    | some hex => parseUint 32 16 hex
    | none => parseUint 32 10 value

theorem unspaced_of_parseIpAddr {text : List Char} {address : IpAddr}
    (read : parseIpAddr text = some address) : Unspaced text := by
  refine unspaced_of_parseWith (fun text value rest run => ?_) read
  split at run
  · rename_i bits remaining ipv4
    cases run
    exact takesUnspaced_readIpv4Addr _ _ _ ipv4
  · split at run
    · rename_i bits remaining ipv6
      cases run
      exact takesUnspaced_readIpv6Addr _ _ _ ipv6
    · cases run

example : parseIpAddr "fe80::1:10.0.0.255".toList =
      some (.v6 0xfe80000000000000000000010a0000ff) := by
  decide +kernel

end Nlink.Wireguard
