import Nlink.WireguardRequests

namespace Nlink.Wireguard

open Foundation Foundation.Text Netlink Network List

/-!
# When the two parsers agree

A file is a list of sections, and a section of a peer is a list of keys and
values.  The parsers are run side by side over the lines of a file that both
accept; what they know of a peer is compared with its section.
-/

section Sections

def values (key : String) (entries : List (String × List Char)) : List (List Char) :=
  (entries.filter (·.1 = key)).map (·.2)

/-- The sections of peers so far, and whether the last section is one. -/
structure Scan where
  peers : List (List (String × List Char))
  inPeer : Bool

/-- What a key does to the sections of a file. -/
def Scan.setKey (scan : Scan) (key : String) (value : List Char) : Scan :=
  match scan.peers.getLast? with
  | some entries =>
      if scan.inPeer then
        { scan with peers := scan.peers.dropLast ++ [entries ++ [(key, value)]] }
      else
        scan
  | none => scan

/-- What a line does to the sections of a file. -/
def Scan.line (scan : Scan) (raw : List Char) : Scan :=
  let line := trim (raw.takeWhile (· ≠ '#'))
  if line = [] then
    scan
  else
    match Quick.sectionName line with
    | some name =>
        if String.ofList (toAsciiLowercase (trim name)) = "peer" then
          { peers := scan.peers ++ [[]], inPeer := true }
        else
          { scan with inPeer := false }
    | none =>
        match splitOnce '=' line with
        | some (key, value) =>
            scan.setKey (String.ofList (toAsciiLowercase (trim key))) (trim value)
        | none => scan

def peerSections (contents : String) : List (List (String × List Char)) :=
  ((lines contents.toList).foldl Scan.line { peers := [], inPeer := false }).peers

/-- A section in which a repeated key changes nothing that the parsers see
differently: only the last `AllowedIPs` lists anything; the last
`PersistentKeepalive` sets an interval, or it turns it off and none was set
before. -/
structure Plain (entries : List (String × List Char)) : Prop where
  allowedIps : ∀ value ∈ (values "allowedips" entries).dropLast, ListsNothing value
  keepalive : ∀ last ∈ (values "persistentkeepalive" entries).getLast?, setsInterval last = true ∨
      turnsOff last = true ∧ ∀ value ∈ values "persistentkeepalive" entries,
          setsInterval value = false

theorem values_append (key : String) (entries more : List (String × List Char)) :
    values key (entries ++ more) = values key entries ++ values key more := by
  rw [values, filter_append, map_append]
  rfl

theorem values_other {key other : String} (different : other ≠ key)
    (entries : List (String × List Char)) (value : List Char) :
    values key (entries ++ [(other, value)]) = values key entries := by
  have none : values key [(other, value)] = [] := by
    rw [values, filter_cons_of_neg (by simpa using different)]
    rfl
  rw [values_append, none, List.append_nil]

theorem values_same (key : String) (entries : List (String × List Char)) (value : List Char) :
    values key (entries ++ [(key, value)]) = values key entries ++ [value] := by
  have one : values key [(key, value)] = [value] := by
    rw [values, filter_cons_of_pos (by simp)]
    rfl
  rw [values_append, one]

end Sections

section Peers

/-- What the parsers know of a peer, beside its section. -/
structure SamePeer (peer : Conf.Peer) (other : DeclaredWgPeer)
    (entries : List (String × List Char)) : Prop where
  publicKey : other.publicKey = peer.publicKey.getD Key.zero
  presharedKey : other.presharedKey = peer.presharedKey
  endpoint : other.endpoint = peer.endpoint
  allowedIps : ∃ lists, List.Forall₂ (fun value ips => ips = [] ↔ ListsNothing value)
      (values "allowedips" entries) lists ∧
      peer.allowedIps = lists.getLast?.getD [] ∧
      other.allowedIps = lists.flatten
  keepalive : ∃ intervals, List.Forall₂ IsInterval (values "persistentkeepalive" entries)
      intervals ∧
      peer.keepalive = intervals.getLast?.getD none ∧
      other.persistentKeepalive = intervals.foldl keepInterval none

theorem samePeer_new : SamePeer Conf.Peer.new Quick.newPeer [] where
  publicKey := rfl
  presharedKey := rfl
  endpoint := rfl
  allowedIps := ⟨[], .nil, rfl, rfl⟩
  keepalive := ⟨[], .nil, rfl, rfl⟩

variable {decode : List Char → Except String (List UInt8)}
variable {peer : Conf.Peer} {other : DeclaredWgPeer}
variable {entries : List (String × List Char)}

theorem SamePeer.append (same : SamePeer peer other entries) {key : String}
    (noIps : key ≠ "allowedips") (noInterval : key ≠ "persistentkeepalive") (value : List Char) :
    SamePeer peer other (entries ++ [(key, value)]) :=
  { same with
    allowedIps := by
      rw [values_other noIps]
      exact same.allowedIps
    keepalive := by
      rw [values_other noInterval]
      exact same.keepalive }

theorem SamePeer.set (canonical : Base64.Canonical decode) (same : SamePeer peer other entries)
    {lineno otherLineno : Nat} {key : String} {otherKey value : List Char}
    (sameKey : String.ofList (toAsciiLowercase otherKey) = key) (trimmed : trim value = value)
    {next : Conf.Peer} {otherNext : DeclaredWgPeer}
    (read : peer.set decode lineno key value = .ok next)
    (readOther : Quick.setPeer other otherLineno otherKey value = .ok otherNext) :
    SamePeer next otherNext (entries ++ [(key, value)]) := by
  rw [Quick.setPeer, sameKey] at readOther
  rw [Conf.Peer.set.eq_def] at read
  split at read
  · simp only [bind_eq_ok_iff] at read readOther
    obtain ⟨publicKey, keyRead, made⟩ := read
    obtain ⟨otherKey, otherRead, otherMade⟩ := readOther
    cases made
    cases otherMade
    exact
      { same.append (by decide) (by decide) value with
        publicKey := parseKey_eq canonical trimmed keyRead otherRead }
  · simp only [bind_eq_ok_iff] at read readOther
    obtain ⟨presharedKey, keyRead, made⟩ := read
    obtain ⟨otherKey, otherRead, otherMade⟩ := readOther
    cases made
    cases otherMade
    exact
      { same.append (by decide) (by decide) value with
        presharedKey := congrArg some (parseKey_eq canonical trimmed keyRead otherRead) }
  · simp only [bind_eq_ok_iff] at read readOther
    obtain ⟨endpoint, endpointRead, made⟩ := read
    obtain ⟨otherEndpoint, otherRead, otherMade⟩ := readOther
    cases made
    cases otherMade
    exact
      { same.append (by decide) (by decide) value with
        endpoint := congrArg some (parseEndpoint_eq endpointRead otherRead) }
  · simp only [bind_eq_ok_iff] at read readOther
    obtain ⟨ips, ipsRead, made⟩ := read
    obtain ⟨otherIps, otherRead, otherMade⟩ := readOther
    cases made
    cases otherMade
    obtain ⟨added, nothing⟩ := pushAllowedIps_eq ipsRead otherRead
    obtain ⟨lists, listed, _, flat⟩ := same.allowedIps
    refine { same with allowedIps := ⟨lists ++ [ips], ?_, ?_, ?_⟩,
                       keepalive := ?_ }
    · rw [values_same]
      exact rel_append listed (.cons nothing .nil)
    · rw [getLast?_concat]
      rfl
    · rw [flatten_concat, ← flat]
      exact added
    · rw [values_other (by decide)]
      exact same.keepalive
  · simp only [bind_eq_ok_iff] at read readOther
    obtain ⟨secs, secsRead, made⟩ := read
    obtain ⟨otherSecs, otherRead, otherMade⟩ := readOther
    cases made
    cases otherMade
    obtain ⟨kept, isInterval⟩ := setKeepalive_eq secsRead otherRead
    obtain ⟨intervals, listed, _, folded⟩ := same.keepalive
    refine { same with allowedIps := ?_,
                       keepalive := ⟨intervals ++ [secs], ?_, ?_, ?_⟩ }
    · rw [values_other (by decide)]
      exact same.allowedIps
    · rw [values_same]
      exact rel_append listed (.cons isInterval .nil)
    · rw [getLast?_concat]
      rfl
    · rw [foldl_concat, ← folded]
      exact kept
  · cases read

end Peers

section States

/-- The states of the parsers between two lines, beside the sections so far. -/
structure SameState (ifname : String) (state : Conf.State) (other : Quick.State)
    (scan : Scan) : Prop where
  ifname : other.device.ifname = ifname
  privateKey : other.device.privateKey = state.iface.privateKey
  listenPort : other.device.listenPort = state.iface.listenPort
  fwmark : other.device.fwmark = state.iface.fwmark
  inSection : other.inSection = state.inSection
  inPeer : scan.inPeer = decide (state.inSection = .peer)
  peers : ∃ rows : List (Conf.Peer × DeclaredWgPeer × List (String × List Char)),
    state.peers = rows.map (·.1) ∧ other.allPeers = rows.map (·.2.1) ∧
      scan.peers = rows.map (·.2.2) ∧
      ∀ row ∈ rows, SamePeer row.1 row.2.1 row.2.2

variable {decode : List Char → Except String (List UInt8)}
variable {state next : Conf.State} {other otherNext : Quick.State}
variable {scan : Scan} {lineno otherLineno : Nat} {ifname : String}

theorem sameState_start (ifname : String) :
    SameState ifname Conf.State.start (Quick.State.start ifname)
      { peers := [], inPeer := false } where
  ifname := rfl
  privateKey := rfl
  listenPort := rfl
  fwmark := rfl
  inSection := rfl
  inPeer := rfl
  peers := ⟨[], rfl, rfl, rfl, fun _ => (absurd · not_mem_nil)⟩

theorem SameState.openSection (same : SameState ifname state other scan) {name : String}
    (read : state.openSection lineno name = .ok next)
    (readOther : other.openSection otherLineno name = .ok otherNext) :
    SameState ifname next otherNext
      (if name = "peer" then
        { peers := scan.peers ++ [[]], inPeer := true }
      else
        { scan with inPeer := false }) := by
  rw [Conf.State.openSection.eq_def] at read
  split at read
  · cases read
    cases readOther
    rw [if_neg (by decide)]
    exact { same with inSection := rfl, inPeer := rfl }
  · cases read
    cases readOther
    obtain ⟨rows, peers, others, sections, each⟩ := same.peers
    rw [if_pos rfl]
    refine { same with inSection := rfl, inPeer := rfl,
                       peers := ⟨rows ++ [(.new, Quick.newPeer, [])], ?_⟩ }
    refine ⟨?_, ?_, ?_, fun row member => ?_⟩
    · rw [map_append, ← peers]
      rfl
    · rw [map_append, ← others]
      rfl
    · rw [map_append, ← sections]
      rfl
    · rcases mem_append.mp member with old | new
      · exact each row old
      · rw [mem_singleton.mp new]
        exact samePeer_new
  · cases read

variable {key : String} {otherKey value : List Char}

section

variable (canonical : Base64.Canonical decode)

include canonical

theorem SameState.setInterface
    (same : SameState ifname state other scan)
    (sameKey : String.ofList (toAsciiLowercase otherKey) = key) (trimmed : trim value = value)
    {iface : Conf.Iface} {device : DeclaredWgDevice}
    (read : state.iface.set decode lineno key value = .ok iface)
    (readOther : Quick.setInterface other.device otherLineno otherKey value = .ok device) :
    SameState ifname { state with iface := iface } { other with device := device } scan := by
  rw [Quick.setInterface, sameKey] at readOther
  rw [Conf.Iface.set.eq_def] at read
  split at read
  · simp only [bind_eq_ok_iff] at read readOther
    obtain ⟨privateKey, keyRead, made⟩ := read
    obtain ⟨otherKey, otherRead, otherMade⟩ := readOther
    cases made
    cases otherMade
    exact
      { same with privateKey := congrArg some (parseKey_eq canonical trimmed keyRead otherRead) }
  · simp only [bind_eq_ok_iff] at read readOther
    obtain ⟨port, portRead, made⟩ := read
    obtain ⟨otherPort, otherRead, otherMade⟩ := readOther
    cases made
    cases otherMade
    exact
      { same with listenPort := congrArg some (parseListenPort_eq portRead otherRead) }
  · simp only [bind_eq_ok_iff] at read readOther
    obtain ⟨mark, markRead, made⟩ := read
    obtain ⟨otherMark, otherRead, otherMade⟩ := readOther
    cases made
    cases otherMade
    exact
      { same with fwmark := congrArg some (parseFwmark_eq markRead otherRead) }
  · cases read

theorem SameState.setPeer
    (same : SameState ifname state other scan) (place : state.inSection = .peer)
    (otherPlace : other.inSection = .peer)
    (sameKey : String.ofList (toAsciiLowercase otherKey) = key) (trimmed : trim value = value)
    {peer : Conf.Peer} {otherPeer : DeclaredWgPeer}
    (read : (state.peers.getLast (state.opened place)).set decode lineno key value = .ok peer)
    (readOther : Quick.setPeer (other.currentPeer.get
      (other.opened otherPlace)) otherLineno otherKey value = .ok otherPeer) :
    ∃ entries, scan.peers.getLast? = some entries ∧
      ∃ rows : List (Conf.Peer × DeclaredWgPeer × List (String × List Char)),
        state.peers.dropLast ++ [peer] = rows.map (·.1) ∧
          other.device.peers ++ [otherPeer] = rows.map (·.2.1) ∧
          scan.peers.dropLast ++ [entries ++ [(key, value)]] = rows.map (·.2.2) ∧
          ∀ row ∈ rows, SamePeer row.1 row.2.1 row.2.2 := by
  obtain ⟨rows, peers, others, sections, each⟩ := same.peers
  obtain ⟨current, isCurrent⟩ := Option.isSome_iff_exists.mp (other.opened otherPlace)
  rcases eq_nil_or_concat rows with rfl | ⟨front, row, rfl⟩
  · exact absurd peers (state.opened place)
  · obtain ⟨before, otherBefore, entries⟩ := row
    simp only [concat_eq_append, map_append, map_cons,
      map_nil, Quick.State.allPeers, isCurrent, Option.toList_some]
      at peers others sections each
    obtain ⟨otherFront, isLast⟩ := append_inj' others rfl
    have isBefore : state.peers.getLast (state.opened place) = before := by
      simp only [peers, getLast_append_singleton]
    have isOther : other.currentPeer.get (other.opened otherPlace) = otherBefore := by
      simp only [isCurrent, Option.get_some]
      exact singleton_inj.mp isLast
    rw [isBefore] at read
    rw [isOther] at readOther
    have row := (each (before, otherBefore, entries)
      (mem_append_right _ mem_cons_self)).set canonical sameKey trimmed read readOther
    refine ⟨entries, ?_, front ++ [(peer, otherPeer, entries ++ [(key, value)])], ?_, ?_, ?_, ?_⟩
    · rw [sections, getLast?_concat]
    · rw [peers, dropLast_concat, map_append]
      rfl
    · rw [otherFront, map_append]
      rfl
    · rw [sections, dropLast_concat, map_append]
      rfl
    · intro other member
      rcases mem_append.mp member with old | new
      · exact each other (mem_append_left _ old)
      · rw [mem_singleton.mp new]
        exact row

theorem SameState.setKey
    (same : SameState ifname state other scan)
    (sameKey : String.ofList (toAsciiLowercase otherKey) = key) (trimmed : trim value = value)
    (read : state.setKey decode lineno key value = .ok next)
    (readOther : other.setKey otherLineno otherKey value = .ok otherNext) :
    SameState ifname next otherNext (scan.setKey key value) := by
  have outside : scan.inPeer = false → scan.setKey key value = scan := by
    intro outside
    rw [Scan.setKey]
    split
    · rw [if_neg (by rw [outside]; decide)]
    · rfl
  rw [Conf.State.setKey] at read
  split at read
  · cases read
  · rename_i place
    have otherPlace : other.inSection = .interface := same.inSection.trans place
    rw [outside (by rw [same.inPeer, place]; rfl)]
    rw [Quick.State.setKey] at readOther
    split at readOther
    · cases readOther
    · rw [bind_eq_ok_iff] at read readOther
      obtain ⟨iface, set, made⟩ := read
      obtain ⟨device, otherSet, otherMade⟩ := readOther
      cases made
      cases otherMade
      exact same.setInterface canonical sameKey trimmed set otherSet
    · rename_i wrong
      rw [otherPlace] at wrong
      cases wrong
  · rename_i place
    have otherPlace : other.inSection = .peer := same.inSection.trans place
    rw [Quick.State.setKey] at readOther
    split at readOther
    · cases readOther
    · rename_i wrong
      rw [otherPlace] at wrong
      cases wrong
    · rw [bind_eq_ok_iff] at read readOther
      obtain ⟨peer, set, made⟩ := read
      obtain ⟨otherPeer, otherSet, otherMade⟩ := readOther
      cases made
      cases otherMade
      obtain ⟨entries, isLast, rows⟩ :=
        same.setPeer canonical place otherPlace sameKey trimmed set otherSet
      rw [Scan.setKey, isLast]
      simp only [same.inPeer, place, decide_true, if_true]
      exact { same with inSection := otherPlace, inPeer := rfl, peers := rows }

theorem SameState.line
    (same : SameState ifname state other scan) {numbered : List Char × Nat}
    (read : Conf.parseLine decode state numbered = .ok next)
    (readOther : Quick.parseLine other numbered = .ok otherNext) :
    SameState ifname next otherNext (scan.line numbered.1) := by
  simp only [Conf.parseLine] at read
  simp only [Quick.parseLine] at readOther
  rw [Scan.line]
  by_cases blank : trim (numbered.1.takeWhile (· ≠ '#')) = []
  · rw [if_pos blank] at read readOther ⊢
    cases read
    cases readOther
    exact same
  rw [if_neg blank] at read readOther ⊢
  generalize trim (numbered.1.takeWhile (· ≠ '#')) = line at *
  cases bracket : stripPrefix ['['] line with
  | some stripped =>
      rw [bracket] at read
      cases ended : stripSuffix ']' stripped with
      | none =>
          simp only [ended] at read
          cases read
      | some name =>
          have named : Quick.sectionName line = some name := by
            rw [Quick.sectionName, bracket, Option.bind_some, ended]
          simp only [ended] at read
          simp only [named] at readOther ⊢
          exact same.openSection read readOther
  | none =>
      have named : Quick.sectionName line = none := by
        rw [Quick.sectionName, bracket, Option.bind_none]
      simp only [bracket] at read
      simp only [named] at readOther ⊢
      cases parts : splitOnce '=' line with
      | none =>
          simp only [parts] at read
          cases read
      | some parts' =>
          obtain ⟨key, value⟩ := parts'
          simp only [parts] at read readOther ⊢
          exact same.setKey canonical rfl (trim_trim value) read readOther

theorem SameState.lines {numbered : List (List Char × Nat)}
    (same : SameState ifname state other scan)
    (read : numbered.foldlM (Conf.parseLine decode) state = .ok next)
    (readOther : numbered.foldlM Quick.parseLine other = .ok otherNext) :
    SameState ifname next otherNext ((numbered.map Prod.fst).foldl Scan.line scan) := by
  induction numbered generalizing state other scan with
  | nil =>
      cases read
      cases readOther
      exact same
  | cons line rest ih =>
      rw [foldlM_cons, bind_eq_ok_iff] at read readOther
      obtain ⟨middle, first, read⟩ := read
      obtain ⟨otherMiddle, otherFirst, readOther⟩ := readOther
      exact ih (same.line canonical first otherFirst) read readOther

end

end States

section Differences

theorem forall₂_concat {α β : Type} {R : α → β → Prop} {front : List α} {last : α} {others : List β}
    (related : List.Forall₂ R (front ++ [last]) others) :
    ∃ otherFront otherLast, others = otherFront ++ [otherLast] ∧
      List.Forall₂ R front otherFront ∧ R last otherLast := by
  induction front generalizing others with
  | nil =>
      cases related with
      | cons here rest =>
          cases rest
          exact ⟨[], _, rfl, .nil, here⟩
  | cons first front ih =>
      cases related with
      | cons here rest =>
          obtain ⟨otherFront, otherLast, rfl, earlier, atLast⟩ := ih rest
          exact ⟨_ :: otherFront, otherLast, rfl, .cons here earlier, atLast⟩

theorem forall₂_forall_iff {α β : Type} {R : α → β → Prop} {P : α → Prop} {Q : β → Prop}
    (same : ∀ item other, R item other → (P item ↔ Q other)) {items : List α} {others : List β}
    (related : List.Forall₂ R items others) :
    (∀ item ∈ items, P item) ↔ ∀ other ∈ others, Q other := by
  induction related with
  | nil => simp
  | cons here _ ih => rw [forall_mem_cons, forall_mem_cons, same _ _ here, ih]

variable {peer : Conf.Peer} {other : DeclaredWgPeer}
variable {entries : List (String × List Char)}

theorem SamePeer.allowedIps_eq_iff (same : SamePeer peer other entries) :
    peer.allowedIps = other.allowedIps ↔ ∀ value ∈ (values "allowedips" entries).dropLast,
        ListsNothing value := by
  obtain ⟨lists, listed, last, flat⟩ := same.allowedIps
  rw [last, flat]
  rcases eq_nil_or_concat (values "allowedips" entries) with empty | ⟨front, value, ends⟩
  · rw [empty] at listed ⊢
    cases listed
    simp
  · rw [ends, concat_eq_append] at listed ⊢
    obtain ⟨otherFront, ips, rfl, earlier, _⟩ := forall₂_concat listed
    rw [dropLast_concat, getLast?_concat, Option.getD_some,
      flatten_concat, self_eq_append_left, flatten_eq_nil_iff,
      forall₂_forall_iff (fun _ _ same => same.symm) earlier]

theorem foldl_keepInterval_eq_none_iff (intervals : List (Option (BitVec 16))) :
    intervals.foldl keepInterval none = none ↔
      ∀ secs ∈ intervals, ¬ ∃ given, secs = some given ∧ given ≠ 0 := by
  induction intervals using List.reverseRecOn with
  | nil => simp
  | append_singleton front secs ih =>
      rw [foldl_concat, forall_mem_append, forall_mem_singleton, ← ih]
      cases secs with
      | none => simp [keepInterval]
      | some given =>
          rw [keepInterval]
          by_cases zero : given = 0
          · rw [if_pos zero]
            simp [zero]
          · rw [if_neg zero]
            refine iff_of_false (Option.some_ne_none _) fun none => ?_
            exact none.2 ⟨given, rfl, zero⟩

theorem foldl_keepInterval_ne_zero (intervals : List (Option (BitVec 16))) :
    intervals.foldl keepInterval none ≠ some (.fromSecs 0) := by
  induction intervals using List.reverseRecOn with
  | nil => simp
  | append_singleton front secs ih =>
      rw [foldl_concat]
      cases secs with
      | none => exact ih
      | some given =>
          rw [keepInterval]
          split
          · exact ih
          · rename_i nonzero
            intro same
            have secs := congrArg (fun duration => duration.secs.toNat) (Option.some.inj same)
            simp only [Duration.fromSecs, BitVec.toNat_ofNat] at secs
            have bound := given.isLt
            refine nonzero (BitVec.eq_of_toNat_eq ?_)
            change given.toNat = 0
            omega

/-- Both know the same interval when the last value sets one, or when it turns
it off and none was set. -/
theorem SamePeer.keepalive_eq_iff (same : SamePeer peer other entries) :
    peer.keepalive.map (fun secs => Duration.fromSecs secs.toNat) = other.persistentKeepalive ↔
      ∀ last ∈ (values "persistentkeepalive" entries).getLast?, setsInterval last = true ∨
          turnsOff last = true ∧ ∀ value ∈ values "persistentkeepalive" entries,
              setsInterval value = false := by
  obtain ⟨intervals, listed, last, folded⟩ := same.keepalive
  rw [last, folded]
  rcases eq_nil_or_concat (values "persistentkeepalive" entries) with empty | ⟨front, value, ends⟩
  · rw [empty] at listed ⊢
    cases listed
    simp
  · rw [ends, concat_eq_append] at listed ⊢
    obtain ⟨otherFront, secs, rfl, earlier, turns, sets⟩ := forall₂_concat listed
    have noneSet : (∀ value ∈ front, setsInterval value = false) ↔
          otherFront.foldl keepInterval none = none := by
      rw [foldl_keepInterval_eq_none_iff]
      refine forall₂_forall_iff (fun value secs isInterval => ?_) earlier
      rw [← isInterval.2, Bool.not_eq_true]
    simp only [getLast?_concat, Option.getD_some, foldl_concat, Option.mem_def,
      Option.some.injEq, forall_eq', forall_mem_append, forall_mem_singleton, noneSet]
    cases secs with
    | none =>
        have unset : setsInterval value = false := by
          rw [← Bool.not_eq_true, sets]
          simp
        rw [keepInterval, Option.map_none, turns.mp rfl, unset]
        simp [eq_comm]
    | some given =>
        have on : turnsOff value = false := by
          rw [← Bool.not_eq_true, ← turns]
          exact Option.some_ne_none _
        rw [keepInterval, Option.map_some, on]
        by_cases zero : given = 0
        · have unset : setsInterval value = false := by
            rw [← Bool.not_eq_true, sets]
            simp [zero]
          rw [if_pos zero, unset, zero]
          refine iff_of_false (Ne.symm ?_) (by simp)
          exact foldl_keepInterval_ne_zero otherFront
        · have set : setsInterval value = true := sets.mpr ⟨given, rfl, zero⟩
          rw [if_neg zero, set]
          exact iff_of_true rfl (.inl rfl)

theorem SamePeer.declare_eq_iff (same : SamePeer peer other entries) {index : Nat}
    {declared : DeclaredWgPeer} (made : Conf.Peer.declare (peer, index) = .ok declared) :
    declared = other ↔ Plain entries := by
  rw [Conf.Peer.declare] at made
  split at made
  · cases made
  · rename_i publicKey known
    cases made
    have key : other.publicKey = publicKey := by
      rw [same.publicKey, known]
      rfl
    constructor
    · rintro rfl
      exact
        { allowedIps := same.allowedIps_eq_iff.mp rfl
          keepalive := same.keepalive_eq_iff.mp rfl }
    · rintro ⟨ips, keepalive⟩
      have sameIps := same.allowedIps_eq_iff.mpr ips
      have sameKeepalive := same.keepalive_eq_iff.mpr keepalive
      have samePsk := same.presharedKey
      have sameEndpoint := same.endpoint
      cases other
      simp only at key sameIps sameKeepalive samePsk sameEndpoint
      simp only [key, sameIps, sameKeepalive, samePsk, sameEndpoint]

theorem mapM_declare_eq_iff {rows : List (Conf.Peer × DeclaredWgPeer × List (String × List Char))}
    (each : ∀ row ∈ rows, SamePeer row.1 row.2.1 row.2.2) (index : Nat)
    {peers : List DeclaredWgPeer}
    (made : ((rows.map (·.1)).zipIdx index).mapM Conf.Peer.declare = .ok peers) :
    peers = rows.map (·.2.1) ↔ ∀ row ∈ rows, Plain row.2.2 := by
  induction rows generalizing index peers with
  | nil =>
      cases made
      simp
  | cons row rest ih =>
      rw [map_cons, zipIdx_cons, mapM_cons, bind_eq_ok_iff] at made
      obtain ⟨declared, here, made⟩ := made
      rw [bind_eq_ok_iff] at made
      obtain ⟨later, laterMade, made⟩ := made
      cases made
      rw [map_cons, List.cons.injEq, forall_mem_cons,
        (each row mem_cons_self).declare_eq_iff here,
        ih (fun other member => each other (mem_cons_of_mem _ member)) (index + 1) laterMade]

end Differences

/-- Two parsed configurations of a text are the same exactly when no section of
a peer has a repeated key that the parsers see differently. -/
theorem parse_eq_parseWgQuick_iff (decode : List Char → Except String (List UInt8))
    (canonical : Base64.Canonical decode) (contents ifname : String)
    (config library : WireguardConfig) (parsed : Conf.parse decode contents ifname = .ok config)
    (parsedToo : Quick.parseWgQuick ifname contents = .ok library) :
    config = library ↔ ∀ entries ∈ peerSections contents, Plain entries := by
  simp only [Conf.parse, bind_eq_ok_iff] at parsed
  simp only [Quick.parseWgQuick, bind_eq_ok_iff] at parsedToo
  obtain ⟨state, read, peers, declared, made⟩ := parsed
  obtain ⟨other, readOther, _, _, otherMade⟩ := parsedToo
  cases made
  cases otherMade
  have same := (sameState_start ifname).lines canonical read readOther
  rw [zipIdx_map_fst] at same
  obtain ⟨rows, statePeers, otherPeers, sections, each⟩ := same.peers
  rw [statePeers] at declared
  rw [peerSections, sections, forall_mem_map, ← mapM_declare_eq_iff each 0 declared, ← otherPeers]
  simp only [WireguardConfig.mk.injEq, List.cons.injEq, and_true, DeclaredWgDevice.mk.injEq,
    same.ifname, same.privateKey, same.listenPort, same.fwmark, true_and]

/-- A section of each kind, and a peer that lists its allowed IPs once. -/
def plainFile : String :=
  "[Interface]\n" ++ "ListenPort = 51820\n" ++ "[Peer]\n" ++
    "PublicKey = AQEBAQEBAQEBAQEBAQEBAQEBAQEBAQEBAQEBAQEBAQE=\n" ++
    "AllowedIPs = 10.0.0.0/24, 10.1.0.0/16\n" ++
    "PersistentKeepalive = 25\n"

/-- Both declare the same for a plain file. -/
theorem parse_eq_parseWgQuick_plain :
    ∃ config, Conf.parse Base64.decode plainFile "wg0" = .ok config ∧
      Quick.parseWgQuick "wg0" plainFile = .ok config := by
  have succeeds : (Conf.parse Base64.decode plainFile "wg0").isOk = true := by decide +kernel
  have succeedsToo : (Quick.parseWgQuick "wg0" plainFile).isOk = true := by decide +kernel
  have sections : peerSections plainFile =
        [[("publickey", "AQEBAQEBAQEBAQEBAQEBAQEBAQEBAQEBAQEBAQEBAQE=".toList),
          ("allowedips", "10.0.0.0/24, 10.1.0.0/16".toList),
          ("persistentkeepalive", "25".toList)]] := by
    decide +kernel
  obtain ⟨config, parsed⟩ := exists_of_isOk succeeds
  obtain ⟨library, parsedToo⟩ := exists_of_isOk succeedsToo
  refine ⟨config, parsed, ?_⟩
  rw [parsedToo, Except.ok.injEq, eq_comm]
  refine (parse_eq_parseWgQuick_iff Base64.decode Base64.canonical_decode
    plainFile "wg0" config library parsed parsedToo).mpr ?_
  rw [sections, forall_mem_singleton]
  refine { allowedIps := ?_, keepalive := ?_ }
  · intro value member
    cases member
  · rintro last ⟨⟩
    left
    decide +kernel

/-- A peer that lists its allowed IPs in two lines. -/
def repeatedFile : String :=
  "[Peer]\n" ++ "PublicKey = AQEBAQEBAQEBAQEBAQEBAQEBAQEBAQEBAQEBAQEBAQE=\n" ++
    "AllowedIPs = 10.0.0.0/24\n" ++
    "AllowedIPs = 10.1.0.0/16\n"

/-- The two parsers declare different peers for repeated allowed IPs. -/
theorem parse_ne_parseWgQuick_repeated : ∃ config library,
      Conf.parse Base64.decode repeatedFile "wg0" = .ok config ∧
        Quick.parseWgQuick "wg0" repeatedFile = .ok library ∧
        config ≠ library := by
  have succeeds : (Conf.parse Base64.decode repeatedFile "wg0").isOk = true := by decide +kernel
  have succeedsToo : (Quick.parseWgQuick "wg0" repeatedFile).isOk = true := by decide +kernel
  have different : (Conf.parse Base64.decode repeatedFile "wg0").toOption ≠
        (Quick.parseWgQuick "wg0" repeatedFile).toOption := by
    decide +kernel
  obtain ⟨config, parsed⟩ := exists_of_isOk succeeds
  obtain ⟨library, parsedToo⟩ := exists_of_isOk succeedsToo
  refine ⟨config, library, parsed, parsedToo, fun same => different ?_⟩
  rw [parsed, parsedToo, same]

end Nlink.Wireguard
