import Nlink.NetworkNames
import Nlink.NftablesRuleBody
import Nlink.RateLimiter

namespace Nlink.Ratelimit.OnHost

open Foundation
open Netlink (asBytes ENOENT EEXIST EINVAL)
open Nlink.Tc
open Nlink.Tc.TcHandle
open Nlink.Tc.Error

/-!
# Rate limiters on one host

A limiter acts on its device and on the IFB device that it names after it.

## Names
-/

/-- `&text[..len]`: the cut must not be inside of a character. -/
def cutAt : Nat → List Char → Option (List Char)
  | 0, _ => some []
  | _ + 1, [] => none
  | len + 1, char :: rest =>
      if char.utf8Size ≤ len + 1 then
        (cutAt (len + 1 - char.utf8Size) rest).map (char :: ·)
      else
        none

/-- `ifb_name`; nothing is a panic. -/
def ifbName (dev : String) : Option String :=
  let maxDevLen := 15 - 4
  if maxDevLen < dev.utf8ByteSize then
    (cutAt maxDevLen dev.toList).map fun part => "ifb_" ++ String.ofList part
  else
    some ("ifb_" ++ dev)

/-- The bytes that `isspace` of the kernel takes for spaces. -/
def isSpace (byte : UInt8) : Bool :=
  (9 ≤ byte && byte ≤ 13) || byte = 32 || byte = 160

/-- `dev_valid_name`. -/
def devValidName (name : String) : Bool :=
  let bytes := asBytes name
  !bytes.isEmpty && bytes.length ≤ 15 && name ≠ "." && name ≠ ".." &&
    bytes.all fun byte => byte ≠ 0 && byte ≠ 47 && byte ≠ 58 && !isSpace byte

/-!
## The host
-/

structure Link where
  device : Device
  hook : Option IngressHook
  isUp : Bool

/-- The links by name, and the index that the next one gets. -/
structure Host where
  links : String → Option Link
  nextIfindex : BitVec 32

namespace Host

/-- A link is replaced, or removed. -/
def put (host : Host) (name : String) (link : Option Link) : Host :=
  { host with links := fun other => if other = name then link else host.links other }

@[simp]
theorem links_put (host : Host) (name : String) (link : Option Link) :
    (host.put name link).links name = link :=
  if_pos rfl

theorem links_put_of_ne (host : Host) {name other : String} (apart : other ≠ name)
    (link : Option Link) : (host.put name link).links other = host.links other :=
  if_neg apart

end Host

inductive Failure where
  | error (error : Error)
  | interface (error : Network.Error)
  | interfaceNotFound (name : String)
  | panic

abbrev HostProgram := EStateM Failure Host

/-- `let _ =`; a panic is not an error. -/
def ignoringErrors (program : HostProgram Unit) : HostProgram Unit :=
  tryCatch program fun failure =>
    match failure with
    | .panic => throw .panic
    | _ => pure ()

/-- The link of a name, looked up as the requests do that are given one. -/
def resolve (name : String) : HostProgram Link := do
  match (← get).links name with
  | some link => pure link
  | none => throw (.interfaceNotFound name)

def setLink (name : String) (link : Option Link) : HostProgram Unit :=
  modify fun host => host.put name link

def onLink (name : String) (program : Conn α) : HostProgram α := do
  let link ← resolve name
  match program link.device with
  | .ok value device => do
      setLink name (some { link with device })
      return value
  | .error error device => do
      setLink name (some { link with device })
      throw (.error error)

def Host.withIfb (host : Host) (name : String) : Host :=
  let link : Link :=
    { device := { ifindex := host.nextIfindex, tree := none }, hook := none, isUp := false }
  { host.put name (some link) with nextIfindex := host.nextIfindex + 1 }

/-- `add_link` of an IFB. -/
def addIfbLink (name : String) : HostProgram Unit :=
  match Network.validate name with
  | some error => throw (.interface error)
  | none => do
      if ((← get).links name).isSome then
        throw (.error (.kernel EEXIST))
      else if devValidName name then
        modify (·.withIfb name)
      else
        throw (.error (.kernel EINVAL))

/-- `set_link_up`. -/
def setLinkUp (name : String) : HostProgram Unit := do
  let link ← resolve name
  setLink name (some { link with isUp := true })

/-- `del_link`. -/
def delLink (name : String) : HostProgram Unit := do
  let _ ← resolve name
  setLink name none

/-- `del_qdisc` of the ingress hook. -/
def delIngressQdisc (name : String) : HostProgram Unit := do
  let link ← resolve name
  match link.hook with
  | none => throw (.error (.kernel ENOENT))
  | some _ => setLink name (some { link with hook := none })

/-- `add_qdisc_full` of the ingress hook. -/
def addIngressQdisc (name : String) : HostProgram Unit := do
  let link ← resolve name
  match link.hook with
  | some _ => throw (.error (withContext "add_qdisc" (.kernel EEXIST)))
  | none => setLink name (some { link with hook := some { kind := "ingress", filters := [] } })

/-- The name of the IFB, or a panic. -/
def ifbOf (dev : String) : HostProgram String :=
  match ifbName dev with
  | some name => pure name
  | none => throw .panic

section

-- What the kernel makes of a u32 filter: nothing when it refuses it.
variable (u32 : RedirectRequest → Option (Packet → Bool))

/-- `add_ingress_redirect`. -/
def addIngressRedirect (dev ifb : String) : HostProgram Unit := do
  match (← get).links ifb with
  | none => throw (.error (.invalidMessage ("IFB device not found: " ++ ifb)))
  | some ifbLink =>
      match (← get).links dev with
      | none => throw (.error (.invalidMessage ("interface not found: " ++ dev)))
      | some link =>
          let request := redirectTo ifbLink.device.ifindex
          match link.hook with
          | none => throw (.error (.kernel EINVAL))
          | some hook =>
              if (u32 request).isNone then
                throw (.error (.kernel EINVAL))
              else
                let filter : HookFilter :=
                  { protocol := request.protocol, priority := request.priority
                    options := .redirect request }
                setLink dev
                  (some { link with hook := some { hook with filters := hook.filters ++ [filter] } })

/-!
## Limiters
-/

/-- A limiter with the name of its interface. -/
structure NamedLimiter extends RateLimiter where
  dev : String

namespace NamedLimiter

variable (limiter : NamedLimiter)

def applyEgress (limit : RateLimit) : HostProgram Unit :=
  onLink limiter.dev limit.applyShape

def applyIngress (limit : RateLimit) : HostProgram Unit := do
  let ifb ← ifbOf limiter.dev
  onlyIf ((← get).links ifb).isNone (addIfbLink ifb)
  setLinkUp ifb
  ignoringErrors (delIngressQdisc limiter.dev)
  addIngressQdisc limiter.dev
  addIngressRedirect u32 limiter.dev ifb
  onLink ifb limit.applyShape

def apply : HostProgram Unit := do
  forSome limiter.egress limiter.applyEgress
  forSome limiter.ingress (limiter.applyIngress u32)

def remove : HostProgram Unit := do
  ignoringErrors (onLink limiter.dev (delQdiscFull ROOT none))
  ignoringErrors (delIngressQdisc limiter.dev)
  let ifb ← ifbOf limiter.dev
  ignoringErrors (delLink ifb)

section

variable (opts : ReconcileOptions)

/-- The IFB is added or set up; a dry run without one counts what is to be done
for it.  Returns whether there is one. -/
def reconcileIfb (ifb : String) (report : ReconcileReport) :
    HostProgram (Bool × ReconcileReport) := do
  match (← get).links ifb with
  | some link =>
      if link.isUp then
        return (true, report)
      else do
        onlyIf (!opts.dryRun) (setLinkUp ifb)
        return (true, addChanges report 1)
  | none =>
      if opts.dryRun then
        return (false, { addChanges report 6 with rootModified := true })
      else do
        addIfbLink ifb
        setLinkUp ifb
        return (true, addChanges report 2)

/-- The ingress hook is added when there is none, and the redirection when the
hook has no filter. -/
def reconcileHook (ifb : String) (report : ReconcileReport) : HostProgram ReconcileReport := do
  let hasIngressHook := ((← get).links limiter.dev).any fun link =>
    link.hook.any (·.kind = "ingress")
  onlyIf (!hasIngressHook && !opts.dryRun) (addIngressQdisc limiter.dev)
  let hasRedirect := hasIngressHook && ((← get).links limiter.dev).any fun link =>
    link.hook.any fun hook => !hook.filters.isEmpty
  onlyIf (!hasRedirect && !opts.dryRun) (addIngressRedirect u32 limiter.dev ifb)
  return addChanges report ((!hasIngressHook).toNat + (!hasRedirect).toNat)

/-- What a root of another kind leads to. -/
def rebuild (report : ReconcileReport) : HostProgram ReconcileReport := do
  onlyIf (!opts.dryRun) (limiter.apply u32)
  return report

/-- The half for what enters. -/
def reconcileIngress (report : ReconcileReport) : HostProgram ReconcileReport :=
  match limiter.ingress with
  | none => pure report
  | some ingress => do
      let ifb ← ifbOf limiter.dev
      let (hasIfb, report) ← reconcileIfb opts ifb report
      let report ← limiter.reconcileHook u32 opts ifb report
      if hasIfb then do
        let (rebuilds, report) ← onLink ifb (reconcileHtbShape opts "ingress" ingress report)
        if rebuilds then limiter.rebuild u32 opts report else return report
      else
        return report

/-- `reconcile_with_options`. -/
def reconcileWithOptions : HostProgram ReconcileReport := do
  let report : ReconcileReport := { dryRun := opts.dryRun }
  match (← get).links limiter.dev, limiter.egress with
  | none, _ => throw (.error (.invalidMessage ("interface not found: " ++ limiter.dev)))
  | some _, none => limiter.reconcileIngress u32 opts report
  | some _, some egress => do
      let (rebuilds, report) ←
        onLink limiter.dev (reconcileHtbShape opts "egress" egress report)
      if rebuilds then limiter.rebuild u32 opts report else limiter.reconcileIngress u32 opts report

end

end NamedLimiter

end

open Nftables (asBytes_append asBytes_inj)

/-!
## Programs that keep a link
-/

section Keeps

variable {other : String}

/-- A program leaves the link of a name as it is. -/
abbrev KeepsLink (other : String) (program : HostProgram α) : Prop :=
  Keeps (fun host : Host => host.links other) program

theorem keepsLink_get : KeepsLink other (get : HostProgram Host) :=
  fun _ => rfl

variable {name : String}

theorem keepsLink_setLink (apart : other ≠ name) (link : Option Link) :
    KeepsLink other (setLink name link) :=
  fun host => host.links_put_of_ne apart link

theorem keepsLink_resolve (name : String) : KeepsLink other (resolve name) := by
  apply Keeps.bind keepsLink_get
  intro host
  split
  · exact Keeps.pure _
  · exact Keeps.throw _

theorem keepsLink_onLink (apart : other ≠ name) (program : Conn α) :
    KeepsLink other (onLink name program) := by
  apply Keeps.bind (keepsLink_resolve name)
  intro link
  split
  · exact Keeps.bind (keepsLink_setLink apart _) fun _ => Keeps.pure _
  · exact Keeps.bind (keepsLink_setLink apart _) fun _ => Keeps.throw _

theorem keepsLink_ignoringErrors {program : HostProgram Unit} (kept : KeepsLink other program) :
    KeepsLink other (ignoringErrors program) := by
  apply Keeps.tryCatch kept
  intro failure
  split
  · exact Keeps.throw _
  · exact Keeps.pure _

section

variable (apart : other ≠ name)

include apart

theorem keepsLink_addIfbLink : KeepsLink other (addIfbLink name) := by
  rw [addIfbLink]
  split
  · exact Keeps.throw _
  · apply Keeps.bind keepsLink_get
    intro host
    split
    · exact Keeps.throw _
    · split
      · exact fun host => host.links_put_of_ne apart _
      · exact Keeps.throw _

theorem keepsLink_setLinkUp : KeepsLink other (setLinkUp name) :=
  Keeps.bind (keepsLink_resolve name) fun _ => keepsLink_setLink apart _

theorem keepsLink_delLink : KeepsLink other (delLink name) :=
  Keeps.bind (keepsLink_resolve name) fun _ => keepsLink_setLink apart _

theorem keepsLink_delIngressQdisc : KeepsLink other (delIngressQdisc name) := by
  apply Keeps.bind (keepsLink_resolve name)
  intro link
  split
  · exact Keeps.throw _
  · exact keepsLink_setLink apart _

theorem keepsLink_addIngressQdisc : KeepsLink other (addIngressQdisc name) := by
  apply Keeps.bind (keepsLink_resolve name)
  intro link
  split
  · exact Keeps.throw _
  · exact keepsLink_setLink apart _

end

variable (u32 : RedirectRequest → Option (Packet → Bool))

theorem keepsLink_addIngressRedirect {dev : String} (apart : other ≠ dev) (ifb : String) :
    KeepsLink other (addIngressRedirect u32 dev ifb) := by
  apply Keeps.bind keepsLink_get
  intro host
  split
  · exact Keeps.throw _
  · apply Keeps.bind keepsLink_get
    intro host
    split
    · exact Keeps.throw _
    · dsimp only
      split
      · exact Keeps.throw _
      · split
        · exact Keeps.throw _
        · exact keepsLink_setLink apart _

/-!
## Limiters keep the other links
-/

variable {limiter : NamedLimiter}

/-- The name is neither that of the limiter's interface nor that of its IFB. -/
structure Outside (limiter : NamedLimiter) (other : String) : Prop where
  dev : other ≠ limiter.dev
  ifb : ifbName limiter.dev ≠ some other

namespace Outside

variable (outside : Outside limiter other)

include outside

theorem bind_ifbOf {next : String → HostProgram α}
    (kept : ∀ ifb, other ≠ ifb → KeepsLink other (next ifb)) :
    KeepsLink other (ifbOf limiter.dev >>= next) := by
  cases isName : ifbName limiter.dev with
  | none =>
      rw [ifbOf, isName]
      exact fun _ => rfl
  | some ifb =>
      rw [ifbOf, isName]
      exact kept ifb fun same => outside.ifb (same ▸ isName)

theorem applyIngress (limit : RateLimit) : KeepsLink other (limiter.applyIngress u32 limit) := by
  apply outside.bind_ifbOf
  intro ifb apart
  apply Keeps.bind keepsLink_get
  intro host
  apply Keeps.bind (Keeps.onlyIf (keepsLink_addIfbLink apart))
  intro _
  apply Keeps.bind (keepsLink_setLinkUp apart)
  intro _
  apply Keeps.bind (keepsLink_ignoringErrors (keepsLink_delIngressQdisc outside.dev))
  intro _
  apply Keeps.bind (keepsLink_addIngressQdisc outside.dev)
  intro _
  apply Keeps.bind (keepsLink_addIngressRedirect u32 outside.dev ifb)
  intro _
  exact keepsLink_onLink apart _

theorem apply : KeepsLink other (limiter.apply u32) := by
  apply Keeps.bind (Keeps.forSome fun limit => keepsLink_onLink outside.dev _)
  intro _
  exact Keeps.forSome fun limit => outside.applyIngress u32 limit

theorem remove : KeepsLink other limiter.remove := by
  apply Keeps.bind (keepsLink_ignoringErrors (keepsLink_onLink outside.dev _))
  intro _
  apply Keeps.bind (keepsLink_ignoringErrors (keepsLink_delIngressQdisc outside.dev))
  intro _
  apply outside.bind_ifbOf
  intro ifb apart
  exact keepsLink_ignoringErrors (keepsLink_delLink apart)

variable (opts : ReconcileOptions)

omit outside in
theorem reconcileIfb {ifb : String} (apart : other ≠ ifb) (report : ReconcileReport) :
    KeepsLink other (NamedLimiter.reconcileIfb opts ifb report) := by
  apply Keeps.bind keepsLink_get
  intro host
  split
  · split
    · exact Keeps.pure _
    · exact Keeps.bind (Keeps.onlyIf (keepsLink_setLinkUp apart)) fun _ => Keeps.pure _
  · split
    · exact Keeps.pure _
    · apply Keeps.bind (keepsLink_addIfbLink apart)
      intro _
      exact Keeps.bind (keepsLink_setLinkUp apart) fun _ => Keeps.pure _

theorem reconcileHook (ifb : String) (report : ReconcileReport) :
    KeepsLink other (limiter.reconcileHook u32 opts ifb report) := by
  apply Keeps.bind keepsLink_get
  intro host
  apply Keeps.bind (Keeps.onlyIf (keepsLink_addIngressQdisc outside.dev))
  intro _
  apply Keeps.bind keepsLink_get
  intro host
  apply Keeps.bind (Keeps.onlyIf (keepsLink_addIngressRedirect u32 outside.dev ifb))
  intro _
  exact Keeps.pure _

theorem rebuild (report : ReconcileReport) : KeepsLink other (limiter.rebuild u32 opts report) :=
  Keeps.bind (Keeps.onlyIf (outside.apply u32)) fun _ => Keeps.pure _

theorem reconcileIngress (report : ReconcileReport) :
    KeepsLink other (limiter.reconcileIngress u32 opts report) := by
  rw [NamedLimiter.reconcileIngress]
  split
  · exact Keeps.pure _
  · apply outside.bind_ifbOf
    intro ifb apart
    apply Keeps.bind (reconcileIfb opts apart report)
    rintro ⟨hasIfb, report⟩
    apply Keeps.bind (outside.reconcileHook u32 opts ifb report)
    intro report
    dsimp only
    split
    · apply Keeps.bind (keepsLink_onLink apart _)
      rintro ⟨rebuilds, report⟩
      dsimp only
      split
      · exact outside.rebuild u32 opts report
      · exact Keeps.pure _
    · exact Keeps.pure _

theorem reconcileWithOptions : KeepsLink other (limiter.reconcileWithOptions u32 opts) := by
  apply Keeps.bind keepsLink_get
  intro host
  split
  · exact Keeps.throw _
  · exact outside.reconcileIngress u32 opts _
  · apply Keeps.bind (keepsLink_onLink outside.dev _)
    rintro ⟨rebuilds, report⟩
    dsimp only
    split
    · exact outside.rebuild u32 opts report
    · exact outside.reconcileIngress u32 opts report

end Outside

end Keeps

/-!
## What the removal of a limiter removes
-/

section Removal

variable {limiter : NamedLimiter}

/-- A program that does not panic. -/
def NoPanic (program : HostProgram α) : Prop :=
  ∀ before after, program before ≠ .error .panic after

theorem ends_ignoringErrors {program : HostProgram Unit} (noPanic : NoPanic program)
    (before : Host) : ∃ after, ignoringErrors program before = .ok () after := by
  change ∃ after, EStateM.tryCatch program _ before = _
  rw [EStateM.tryCatch]
  cases run : program before with
  | ok value after => exact ⟨after, rfl⟩
  | error failure after =>
      cases failure with
      | panic => exact absurd run (noPanic before after)
      | error error | interface error | interfaceNotFound name => exact ⟨after, rfl⟩

theorem NoPanic.bind {program : HostProgram α} {next : α → HostProgram β}
    (first : NoPanic program) (second : ∀ value, NoPanic (next value)) :
    NoPanic (program >>= next) := by
  intro before after
  change EStateM.bind program next before ≠ _
  rw [EStateM.bind]
  cases run : program before with
  | ok value between => exact second value between after
  | error failure between =>
      intro panics
      cases panics
      exact first before after run

variable (name : String)

theorem noPanic_resolve : NoPanic (resolve name) := by
  refine @NoPanic.bind Host Link get _ nofun ?_
  intro host
  split
  · nofun
  · nofun

theorem noPanic_onLink (program : Conn α) : NoPanic (onLink name program) := by
  apply NoPanic.bind (noPanic_resolve name)
  intro link
  split
  · nofun
  · nofun

theorem noPanic_delIngressQdisc : NoPanic (delIngressQdisc name) := by
  apply NoPanic.bind (noPanic_resolve name)
  intro link
  split
  · nofun
  · nofun

theorem resolve_eq (host : Host) :
    resolve name host =
      match host.links name with
      | some link => .ok link host
      | none => .error (Failure.interfaceNotFound name) host := by
  change (match host.links name with
    | some link => (pure link : HostProgram Link)
    | none => throw (Failure.interfaceNotFound name)) host = _
  cases host.links name <;> rfl

theorem delLink_removes (host : Host) :
    (stateOf (ignoringErrors (delLink name) host)).links name = none := by
  have resolved := resolve_eq name host
  change (stateOf (EStateM.tryCatch (EStateM.bind (resolve name) _) _ host)).links name = none
  rw [EStateM.tryCatch, EStateM.bind, resolved]
  cases found : host.links name with
  | none => exact found
  | some link => exact host.links_put name none

/-- The IFB's name is free after a removal. -/
theorem remove_removes {ifb : String} (isName : ifbName limiter.dev = some ifb) (host : Host) :
    (stateOf (limiter.remove host)).links ifb = none := by
  obtain ⟨first, isFirst⟩ := ends_ignoringErrors
    (noPanic_onLink limiter.dev (delQdiscFull ROOT none)) host
  obtain ⟨second, isSecond⟩ := ends_ignoringErrors (noPanic_delIngressQdisc limiter.dev) first
  have whole : limiter.remove host = ignoringErrors (delLink ifb) second := by
    change EStateM.bind _ _ host = _
    rw [EStateM.bind, isFirst]
    change EStateM.bind _ _ first = _
    rw [EStateM.bind, isSecond]
    change EStateM.bind _ _ second = _
    rw [EStateM.bind, ifbOf, isName]
    rfl
  rw [whole]
  exact delLink_removes ifb second

end Removal

/-!
## Names
-/

section Names

variable {name : String}

/-- The bytes of the name that go into that of the IFB. -/
def devPart (name : String) : List UInt8 :=
  (asBytes name).take 11

/-- A name of more than eleven bytes has a character that ends at the eleventh. -/
def EndsWhole (name : String) : Prop :=
  name.utf8ByteSize ≤ 11 ∨ ∃ front back : String, name = front ++ back ∧ front.utf8ByteSize = 11

theorem utf8ByteSize_cons (char : Char) (chars : List Char) :
    (String.ofList (char :: chars)).utf8ByteSize =
      char.utf8Size + (String.ofList chars).utf8ByteSize := by
  rw [String.ofList_cons, String.utf8ByteSize_append]
  simp

theorem utf8ByteSize_eq_zero {chars : List Char} :
    (String.ofList chars).utf8ByteSize = 0 ↔ chars = [] := by
  cases chars with
  | nil => exact iff_of_true rfl rfl
  | cons char rest =>
      have positive := char.utf8Size_pos
      rw [utf8ByteSize_cons]
      exact iff_of_false (by omega) nofun

/-- A cut gives the characters in front of it, if it is between two. -/
theorem cutAt_iff {len : Nat} {chars front : List Char} :
    cutAt len chars = some front ↔
      ∃ back, chars = front ++ back ∧ (String.ofList front).utf8ByteSize = len := by
  fun_induction cutAt len chars generalizing front with
  | case1 chars =>
      rw [Option.some.injEq]
      constructor
      · rintro rfl
        exact ⟨chars, rfl, rfl⟩
      · rintro ⟨back, -, nothing⟩
        exact (utf8ByteSize_eq_zero.mp nothing).symm
  | case2 len =>
      refine iff_of_false nofun ?_
      rintro ⟨back, isNil, size⟩
      rw [(List.append_eq_nil_iff.mp isNil.symm).1] at size
      cases size
  | case3 len char rest fits ih =>
      rw [Option.map_eq_some_iff]
      constructor
      · rintro ⟨part, isPart, rfl⟩
        obtain ⟨back, rfl, size⟩ := ih.mp isPart
        refine ⟨back, rfl, ?_⟩
        rw [utf8ByteSize_cons, size]
        omega
      · rintro ⟨back, whole, size⟩
        cases front with
        | nil => cases size
        | cons first part =>
            rw [List.cons_append, List.cons.injEq] at whole
            obtain ⟨rfl, rfl⟩ := whole
            rw [utf8ByteSize_cons] at size
            exact ⟨part, ih.mpr ⟨back, rfl, by omega⟩, rfl⟩
  | case4 len char rest wide =>
      refine iff_of_false nofun ?_
      rintro ⟨back, whole, size⟩
      cases front with
      | nil => cases size
      | cons first part =>
          rw [List.cons_append, List.cons.injEq] at whole
          obtain ⟨rfl, -⟩ := whole
          rw [utf8ByteSize_cons] at size
          omega

theorem devPart_of_short (short : name.utf8ByteSize ≤ 11) : devPart name = asBytes name :=
  List.take_of_length_le short

theorem devPart_append {front : String} (size : front.utf8ByteSize = 11) (back : String) :
    devPart (front ++ back) = asBytes front := by
  rw [devPart, asBytes_append]
  exact List.take_left' size

theorem eq_append_iff {ifb part : String} :
    "ifb_" ++ part = ifb ↔ asBytes ifb = asBytes "ifb_" ++ asBytes part := by
  rw [← asBytes_append]
  exact ⟨fun same => congrArg asBytes same.symm, fun same => (asBytes_inj same).symm⟩

/-- The name of the IFB has the first eleven bytes of the other one behind `ifb_`. -/
theorem ifbName_eq_some_iff {ifb : String} :
    ifbName name = some ifb ↔ EndsWhole name ∧ asBytes ifb = asBytes "ifb_" ++ devPart name := by
  rw [ifbName]
  split
  · rename_i long
    rw [Option.map_eq_some_iff]
    constructor
    · rintro ⟨part, isPart, isIfb⟩
      obtain ⟨back, whole, size⟩ := cutAt_iff.mp isPart
      have isName : name = String.ofList part ++ String.ofList back := by
        rw [← String.ofList_append, ← whole, String.ofList_toList]
      refine ⟨.inr ⟨_, _, isName, size⟩, ?_⟩
      rw [isName, devPart_append size]
      exact eq_append_iff.mp isIfb
    · rintro ⟨short | ⟨front, back, rfl, size⟩, isIfb⟩
      · exact absurd short (Nat.not_le_of_lt long)
      · rw [devPart_append size] at isIfb
        refine ⟨front.toList, cutAt_iff.mpr ⟨back.toList, String.toList_append, ?_⟩, ?_⟩
        · rw [String.ofList_toList]
          exact size
        · rw [String.ofList_toList]
          exact eq_append_iff.mpr isIfb
  · rename_i short
    have fits : name.utf8ByteSize ≤ 11 := Nat.le_of_not_lt short
    rw [Option.some.injEq, eq_append_iff, devPart_of_short fits]
    exact ⟨fun isIfb => ⟨.inl fits, isIfb⟩, And.right⟩

theorem exists_ifbName (whole : EndsWhole name) : ∃ ifb, ifbName name = some ifb := by
  rcases whole with short | ⟨front, back, rfl, size⟩
  · exact ⟨"ifb_" ++ name, ifbName_eq_some_iff.mpr ⟨.inl short, by
      rw [devPart_of_short short, asBytes_append]⟩⟩
  · exact ⟨"ifb_" ++ front, ifbName_eq_some_iff.mpr ⟨.inr ⟨front, back, rfl, size⟩, by
      rw [devPart_append size, asBytes_append]⟩⟩

theorem asBytes_ifb : asBytes "ifb_" = [105, 102, 98, 95] := by
  decide +kernel

theorem ne_of_ifb {ifb short : String} {part : List UInt8}
    (bytes : asBytes ifb = asBytes "ifb_" ++ part) (other : (asBytes short).head? ≠ some 105) :
    ifb ≠ short := by
  rintro rfl
  rw [bytes, asBytes_ifb] at other
  exact other rfl

theorem devValidName_ifbName {ifb : String} (valid : devValidName name = true)
    (isName : ifbName name = some ifb) : devValidName ifb = true := by
  obtain ⟨-, bytes⟩ := ifbName_eq_some_iff.mp isName
  simp only [devValidName, Bool.and_eq_true, List.all_eq_true] at valid ⊢
  obtain ⟨-, allowed⟩ := valid
  refine ⟨⟨⟨⟨?_, ?_⟩, ?_⟩, ?_⟩, ?_⟩
  · rw [bytes, asBytes_ifb]
    rfl
  · rw [bytes, asBytes_ifb, devPart, List.length_append, List.length_take]
    exact decide_eq_true (by simp; omega)
  · exact decide_eq_true (ne_of_ifb bytes (by decide +kernel))
  · exact decide_eq_true (ne_of_ifb bytes (by decide +kernel))
  · rw [bytes, asBytes_ifb]
    intro byte member
    rcases List.mem_append.mp member with inFront | inPart
    · have plain : ∀ byte ∈ ([105, 102, 98, 95] : List UInt8),
          (((decide (byte ≠ 0) = true ∧ decide (byte ≠ 47) = true) ∧
            decide (byte ≠ 58) = true) ∧ (!isSpace byte) = true) := by
        decide +kernel
      exact plain byte inFront
    · exact allowed byte (List.mem_of_mem_take inPart)

end Names

/-!
## Isolation
-/

/-- The interface of a limiter, with the redirection at its hook, and its IFB, with
the shaping tree, are what they were. -/
structure Unchanged (limiter : NamedLimiter) (before after : Host) : Prop where
  interface : after.links limiter.dev = before.links limiter.dev
  ifb : ∀ name, ifbName limiter.dev = some name → after.links name = before.links name

section Isolation

variable (u32 : RedirectRequest → Option (Packet → Bool))

/-- Whatever is done with one limiter on any host leaves the other one's links. -/
structure LeavesAlone (limiter other : NamedLimiter) : Prop where
  apply : ∀ host, Unchanged other host (stateOf (limiter.apply u32 host))
  reconcile : ∀ opts host, Unchanged other host
    (stateOf (limiter.reconcileWithOptions u32 opts host))
  remove : ∀ host, Unchanged other host (stateOf (limiter.remove host))

/-- The IFB has a name, and a valid one. -/
def HasIfb (limiter : NamedLimiter) : Prop :=
  ∃ name, ifbName limiter.dev = some name ∧ devValidName name = true

structure Isolated (first second : NamedLimiter) : Prop where
  ifbFirst : HasIfb first
  ifbSecond : HasIfb second
  forth : LeavesAlone u32 first second
  back : LeavesAlone u32 second first

/-- Two names that give two IFBs, neither of them with one of the names. -/
structure Apart (first second : String) : Prop where
  wholeFirst : EndsWhole first
  wholeSecond : EndsWhole second
  parts : devPart first ≠ devPart second
  notFirst : asBytes first ≠ asBytes "ifb_" ++ devPart second
  notSecond : asBytes second ≠ asBytes "ifb_" ++ devPart first

variable {first second : NamedLimiter}

theorem leavesAlone (differ : first.dev ≠ second.dev) (apart : Apart first.dev second.dev) :
    LeavesAlone u32 first second := by
  have interface : Outside first second.dev := by
    refine ⟨differ.symm, fun isName => ?_⟩
    exact apart.notSecond (ifbName_eq_some_iff.mp isName).2
  have ifb (name : String) (isName : ifbName second.dev = some name) : Outside first name := by
    have bytes := (ifbName_eq_some_iff.mp isName).2
    refine ⟨?_, fun same => ?_⟩
    · rintro rfl
      exact apart.notFirst bytes
    · have sameBytes := (ifbName_eq_some_iff.mp same).2
      rw [bytes] at sameBytes
      exact apart.parts (List.append_cancel_left sameBytes).symm
  refine ⟨fun host => ⟨?_, fun name isName => ?_⟩, fun opts host => ⟨?_, fun name isName => ?_⟩,
    fun host => ⟨?_, fun name isName => ?_⟩⟩
  · exact interface.apply u32 host
  · exact (ifb name isName).apply u32 host
  · exact interface.reconcileWithOptions u32 opts host
  · exact (ifb name isName).reconcileWithOptions u32 opts host
  · exact interface.remove host
  · exact (ifb name isName).remove host

def hostWith (name : String) : Host :=
  Host.put { links := fun _ => none, nextIfindex := 2 } name
    (some { device := { ifindex := 1, tree := none }, hook := none, isUp := true })

/-- The removal of a limiter takes the link of its IFB's name. -/
theorem not_unchanged_remove {ifb : String} (isName : ifbName first.dev = some ifb)
    (same : (stateOf (first.remove (hostWith ifb))).links ifb = (hostWith ifb).links ifb) :
    False := by
  rw [remove_removes isName, hostWith, Host.links_put] at same
  cases same

theorem ne_ifb_of_leavesAlone (alone : LeavesAlone u32 first second) {ifb : String}
    (isName : ifbName first.dev = some ifb) : second.dev ≠ ifb ∧ ifbName second.dev ≠ some ifb := by
  refine ⟨?_, fun isOther => ?_⟩
  · rintro rfl
    exact not_unchanged_remove isName (alone.remove _).interface
  · exact not_unchanged_remove isName ((alone.remove _).ifb ifb isOther)

/-- Limiters on two interfaces are isolated exactly if their names are apart. -/
theorem isolated_iff (validFirst : devValidName first.dev = true)
    (validSecond : devValidName second.dev = true) (differ : first.dev ≠ second.dev) :
    Isolated u32 first second ↔ Apart first.dev second.dev := by
  constructor
  · rintro ⟨⟨ifb, isName, -⟩, ⟨other, isOther, -⟩, alone, aloneOther⟩
    obtain ⟨whole, bytes⟩ := ifbName_eq_some_iff.mp isName
    obtain ⟨wholeOther, bytesOther⟩ := ifbName_eq_some_iff.mp isOther
    obtain ⟨notDev, notIfb⟩ := ne_ifb_of_leavesAlone u32 alone isName
    obtain ⟨notDevOther, -⟩ := ne_ifb_of_leavesAlone u32 aloneOther isOther
    refine ⟨whole, wholeOther, fun same => ?_, fun same => ?_, fun same => ?_⟩
    · exact notIfb (ifbName_eq_some_iff.mpr ⟨wholeOther, by rw [bytes, same]⟩)
    · exact notDevOther (asBytes_inj (same.trans bytesOther.symm))
    · exact notDev (asBytes_inj (same.trans bytes.symm))
  · intro apart
    obtain ⟨ifb, isName⟩ := exists_ifbName apart.wholeFirst
    obtain ⟨other, isOther⟩ := exists_ifbName apart.wholeSecond
    exact ⟨⟨ifb, isName, devValidName_ifbName validFirst isName⟩,
      ⟨other, isOther, devValidName_ifbName validSecond isOther⟩, leavesAlone u32 differ apart,
      leavesAlone u32 differ.symm ⟨apart.wholeSecond, apart.wholeFirst, apart.parts.symm,
        apart.notSecond, apart.notFirst⟩⟩

end Isolation

/-- A limiter of what enters an interface. -/
def ingressOn (dev : String) : NamedLimiter where
  ingress := some { rate := ⟨125000⟩ }
  dev := dev

/-- A kernel that takes every u32 filter for one that matches all packets. -/
def matchesAll : RedirectRequest → Option (Packet → Bool) :=
  fun _ => some fun _ => true

theorem isolated_eth : Isolated matchesAll (ingressOn "eth0") (ingressOn "eth1") :=
  (isolated_iff matchesAll (by decide +kernel) (by decide +kernel) (by decide +kernel)).mpr
    ⟨.inl (by decide +kernel), .inl (by decide +kernel), by decide +kernel, by decide +kernel,
      by decide +kernel⟩

/-- Long names with the same first eleven bytes have one IFB, `eth0` has its IFB at
the interface of another limiter, and a character over the eleventh byte is a
panic. -/
theorem not_isolated :
    (devValidName "wan-uplink-01" = true ∧ devValidName "wan-uplink-02" = true ∧
      ¬ Isolated matchesAll (ingressOn "wan-uplink-01") (ingressOn "wan-uplink-02")) ∧
    (devValidName "ifb_eth0" = true ∧
      ¬ Isolated matchesAll (ingressOn "eth0") (ingressOn "ifb_eth0")) ∧
    devValidName "wan-uplinké" = true ∧ ifbName "wan-uplinké" = none := by
  refine ⟨⟨by decide +kernel, by decide +kernel, fun isolated => ?_⟩,
    ⟨by decide +kernel, fun isolated => ?_⟩, by decide +kernel, by decide +kernel⟩
  · have isName : ifbName (ingressOn "wan-uplink-01").dev = some "ifb_wan-uplink-" := by
      decide +kernel
    exact (ne_ifb_of_leavesAlone matchesAll isolated.forth isName).2 (by decide +kernel)
  · have isName : ifbName (ingressOn "eth0").dev = some "ifb_eth0" := by decide +kernel
    exact (ne_ifb_of_leavesAlone matchesAll isolated.forth isName).1 rfl

end Nlink.Ratelimit.OnHost
