import Nlink.GenericConnection

namespace Nlink.Generic

open Foundation Netlink List

/-!
# Calls that get their own answers

`get_family` and `command` receive one datagram although the kernel answers with
two.  What is left over is received by the next call.  A call that finds the
queue empty, or a dump, gets its own answer.
-/

namespace State

variable {order : ByteOrder}

/-- What every call keeps: the cache agrees with the kernel, and the queue holds
datagrams of whole messages that fit the first buffer. -/
structure Sound (order : ByteOrder) (state : State) : Prop where
  cached : ∀ name info, state.conn.cache.lookup name = some info →
    ∃ family, state.families name = .ok family ∧ family.info = info
  queued : ∃ frames : List (List Frame), state.conn.queue = frames.map (datagram order) ∧
      Small (frames.map (datagram order))

theorem sound_start (order : ByteOrder) (families : Families) (counter : Nat) :
    (start families counter).Sound order where
  cached _ _ found := by cases found
  queued := ⟨[], rfl, by simp [Small]⟩

theorem okMessages_datagram (order : ByteOrder) (frames : List Frame) :
    okMessages order (datagram order frames) = frames.map Frame.message := by
  rw [okMessages, messageIter_datagram]
  induction frames with
  | nil => rfl
  | cons frame rest ih => exact congrArg (List.cons frame.message) ih

theorem NoneQueued.noneCarries {conn : Connection} (none : NoneQueued order conn)
    {frames : List (List Frame)} (queued : conn.queue = frames.map (datagram order)) :
    ∀ datagram ∈ frames, NoneCarries conn.nextSeq datagram := by
  intro datagram member frame inDatagram
  refine none _ (queued ▸ mem_map_of_mem member) frame.message ?_
  rw [okMessages_datagram]
  exact mem_map_of_mem inDatagram

variable {state : State}

theorem Sound.answered (sound : state.Sound order) {answer : List (List Frame)}
    (small : Small (answer.map (datagram order))) :
    ∃ frames : List (List Frame), state.conn.queue ++ answer.map (datagram order) =
        frames.map (datagram order) ∧
      Small (frames.map (datagram order)) := by
  obtain ⟨frames, queued, framesSmall⟩ := sound.queued
  refine ⟨frames ++ answer, by rw [queued, map_append], ?_⟩
  rw [map_append, Small, forall_mem_append]
  exact ⟨framesSmall, small⟩

theorem Sound.ofRest (sound : state.Sound order) {answer : List (List Frame)}
    (small : Small (answer.map (datagram order))) {first : Datagram} {rest : List Datagram}
    (queued : state.conn.queue ++ answer.map (datagram order) = first :: rest)
    (sent : List Datagram) :
    ({ state with
      conn := { state.conn.send sent with queue := rest } } : State).Sound
      order where
  cached := sound.cached
  queued := by
    obtain ⟨frames, isFrames, framesSmall⟩ := sound.answered small
    rw [queued] at isFrames
    cases frames with
    | nil => cases isFrames
    | cons head tail =>
        rw [map_cons, List.cons.injEq] at isFrames
        exact ⟨tail, isFrames.2, (forall_mem_cons.mp framesSmall).2⟩

variable {name : String}

theorem Sound.remember (sound : state.Sound order) {family : Family}
    (known : state.families name = .ok family) :
    ({ state with
      conn := state.conn.remember name (some (.ok family.info)) } :
      State).Sound order where
  cached asked info found := by
    by_cases same : asked = name
    · subst same
      change (state.conn.cache.insert asked family.info).lookup asked = _ at found
      rw [AList.lookup_insert, Option.some.injEq] at found
      exact ⟨family, known, found⟩
    · change (state.conn.cache.insert name family.info).lookup asked = _ at found
      rw [AList.lookup_insert_ne same] at found
      exact sound.cached asked info found
  queued := sound.queued

theorem getFamily_cached (sound : state.Sound order) {info : FamilyInfo}
    (found : state.conn.cache.lookup name = some info) (answer : Answer order) :
    state.GetsOwnAnswer (.getFamily name answer) ∧
      (state.next (.getFamily name answer)).Sound order := by
  have cached : state.conn.getFamily order name answer.datagrams =
      (some (.ok info), state.conn) := by
    rw [Connection.getFamily, found]
  rw [GetsOwnAnswer, next, cached]
  refine ⟨⟨fun family known => ?_, fun asked notFound => ?_⟩, sound⟩
  · obtain ⟨other, otherKnown, isInfo⟩ := sound.cached name info found
    rw [known] at otherKnown
    cases otherKnown
    rw [isInfo]
  · cases notFound

variable {answer : Answer order}

section

variable (sound : state.Sound order)

include sound

theorem getFamily_queried
    (notCached : state.conn.cache.lookup name = none) (small : Small answer.datagrams)
    {first : List Frame} {rest : List Datagram}
    (queued : state.conn.queue ++ answer.datagrams = datagram order first :: rest)
    (firstSmall : (datagram order first).length ≤ RECV_INITIAL_CAPACITY)
    (tells :
      match state.families name with
      | .ok family =>
          familyFromMessages order state.conn.nextSeq name (yielded first) = .ok family.info
      | .error code =>
          ∃ error, familyFromMessages order state.conn.nextSeq name (yielded first) = .error error ∧
              ∀ asked, error = .familyNotFound asked → asked = name ∧ code = ENOENT) :
    state.GetsOwnAnswer (.getFamily name answer) ∧
      (state.next (.getFamily name answer)).Sound order := by
  have after := sound.ofRest small queued answer.datagrams
  rw [GetsOwnAnswer, next, Connection.getFamily_first order notCached queued firstSmall]
  cases known : state.families name with
  | ok family =>
      rw [known] at tells
      dsimp only at tells ⊢
      rw [tells]
      refine ⟨⟨fun other same => ?_, fun asked notFound => ?_⟩, after.remember known⟩
      · rw [Except.ok.injEq] at same
        rw [same]
      · cases notFound
  | error code =>
      rw [known] at tells
      obtain ⟨error, isError, onlyUnknown⟩ := tells
      dsimp only
      rw [isError]
      refine ⟨⟨fun other same => ?_, fun asked notFound => ?_⟩, after⟩
      · cases same
      · cases notFound
        obtain ⟨isName, isCode⟩ := onlyUnknown asked rfl
        exact ⟨isName, congrArg Except.error isCode⟩

/-- A query that finds the queue empty gets its own answer. -/
theorem getFamily_alone
    (notCached : state.conn.cache.lookup name = none)
    (lawful : state.Lawful (.getFamily name answer)) (small : Small answer.datagrams)
    (empty : state.conn.queue = []) :
    state.GetsOwnAnswer (.getFamily name answer) ∧
      (state.next (.getFamily name answer)).Sound order := by
  obtain ⟨ownSeq, answers⟩ := lawful
  rw [AnswersFamily] at answers
  cases known : state.families name with
  | ok family =>
      rw [known] at answers
      obtain ⟨_, frame, others, more, genlHeader, isReplies, headerLength, describes⟩ := answers
      have isDatagrams : answer.datagrams = datagram order (frame :: others) ::
            (more ++ [[answer.ending]]).map (datagram order) := by
        rw [Answer.datagrams, Answer.frames, isReplies]
        rfl
      have reply : IsReply state.conn.nextSeq frame := by
        rw [← ownSeq]
        exact answer.repliesOwn (frame :: others) (isReplies ▸ mem_cons_self) frame mem_cons_self
      refine getFamily_queried sound notCached small (by rw [empty, List.nil_append, isDatagrams])
        (small _ (isDatagrams ▸ mem_cons_self)) ?_
      rw [known]
      exact familyFromMessages_reply order reply headerLength describes others name
  | error code =>
      rw [known] at answers
      obtain ⟨nonZero, isCode, noReplies⟩ := answers
      have isDatagrams : answer.datagrams = [datagram order [answer.ending]] := by
        rw [Answer.datagrams, Answer.frames, noReplies]
        rfl
      have rejected : ¬ answer.Accepted := by
        rw [Answer.Accepted, NlMsgError.isAck, isCode, beq_iff_eq]
        omega
      have response := familyFromMessages_rejection order answer rejected name
      refine getFamily_queried sound notCached small (by rw [empty, List.nil_append, isDatagrams])
        (small _ (isDatagrams ▸ mem_cons_self)) ?_
      rw [known, ← ownSeq, response]
      by_cases isUnknown : answer.verdict.errno = -ENOENT
      · refine ⟨.familyNotFound name, if_pos isUnknown, fun asked same => ?_⟩
        cases same
        refine ⟨rfl, ?_⟩
        omega
      · refine ⟨.netlink answer.rejection, if_neg isUnknown, fun asked same => ?_⟩
        cases same

theorem getFamily_unknown
    (notCached : state.conn.cache.lookup name = none)
    (lawful : state.Lawful (.getFamily name answer)) (small : Small answer.datagrams)
    (unknown : state.families name = .error ENOENT) (none : NoneQueued order state.conn) :
    state.GetsOwnAnswer (.getFamily name answer) ∧
      (state.next (.getFamily name answer)).Sound order := by
  obtain ⟨frames, queued, framesSmall⟩ := sound.queued
  cases frames with
  | nil => exact getFamily_alone sound notCached lawful small queued
  | cons first rest =>
      have noneFirst : NoneCarries state.conn.nextSeq first :=
        none.noneCarries queued first mem_cons_self
      refine getFamily_queried sound notCached small
        (by rw [queued, map_cons, cons_append])
        (framesSmall _ mem_cons_self) ?_
      rw [unknown]
      refine ⟨.familyNotFound name, familyFromMessages_of_noneCarries order noneFirst name,
        fun asked same => ?_⟩
      cases same
      exact ⟨rfl, rfl⟩

/-- A command that finds the queue empty gets its own answer, unless replies
come before its rejection. -/
theorem command_alone (lawful : state.Lawful (.command answer))
    (small : Small answer.datagrams) (empty : state.conn.queue = [])
    (clear : answer.Accepted ∨ answer.replies = []) :
    state.GetsOwnAnswer (.command answer) ∧ (state.next (.command answer)).Sound order := by
  have ownSeq : answer.seq = state.conn.nextSeq := lawful
  cases isReplies : answer.replies with
  | nil =>
      have isDatagrams : answer.datagrams = [datagram order [answer.ending]] := by
        rw [Answer.datagrams, Answer.frames, isReplies]
        rfl
      have queued : state.conn.queue ++ answer.datagrams = [datagram order [answer.ending]] := by
        rw [empty, List.nil_append, isDatagrams]
      have endingSmall := small _ (isDatagrams ▸ mem_cons_self)
      refine ⟨?_, ?_⟩
      · rw [GetsOwnAnswer, Connection.command_first order queued endingSmall,
          ← ownSeq, checkMessages_ending]
        by_cases accepted : answer.Accepted
        · refine Or.inl ⟨accepted, datagram order [answer.ending], isDatagrams ▸ mem_cons_self, ?_⟩
          rw [if_pos accepted]
          rfl
        · refine Or.inr ⟨accepted, ?_⟩
          rw [if_neg accepted]
          rfl
      · rw [next, Connection.command_first order queued endingSmall]
        exact sound.ofRest small queued answer.datagrams
  | cons first more =>
      have accepted : answer.Accepted :=
        clear.resolve_right fun noReplies => by
          rw [noReplies] at isReplies
          cases isReplies
      have isDatagrams : answer.datagrams = datagram order first ::
            (more ++ [[answer.ending]]).map (datagram order) := by
        rw [Answer.datagrams, Answer.frames, isReplies]
        rfl
      have queued : state.conn.queue ++ answer.datagrams = datagram order first ::
            (more ++ [[answer.ending]]).map (datagram order) := by
        rw [empty, List.nil_append, isDatagrams]
      have firstSmall := small _ (isDatagrams ▸ mem_cons_self)
      have replies : ∀ frame ∈ first, IsReply state.conn.nextSeq frame := by
        rw [← ownSeq]
        exact answer.repliesOwn first (isReplies ▸ mem_cons_self)
      refine ⟨?_, ?_⟩
      · rw [GetsOwnAnswer, Connection.command_first order queued firstSmall,
          checkMessages_replies order replies]
        exact Or.inl ⟨accepted, datagram order first, isDatagrams ▸ mem_cons_self, rfl⟩
      · rw [next, Connection.command_first order queued firstSmall]
        exact sound.ofRest small queued answer.datagrams

theorem dumpCommand_own {answer : DumpAnswer order}
    (lawful : state.Lawful (.dumpCommand answer)) (small : Small answer.datagrams)
    (none : NoneQueued order state.conn) :
    state.GetsOwnAnswer (.dumpCommand answer) ∧ (state.next (.dumpCommand answer)).Sound order := by
  obtain ⟨frames, queued, framesSmall⟩ := sound.queued
  have ownSeq : answer.seq = state.conn.nextSeq := lawful
  have sent : (state.conn.send answer.datagrams).queue =
      (frames ++ answer.frames).map (datagram order) := by
    rw [map_append, ← queued]
    rfl
  have allSmall : Small ((frames ++ answer.frames).map (datagram order)) := by
    rw [map_append, Small, forall_mem_append]
    exact ⟨framesSmall, small⟩
  have stale : NoneCarries state.conn.nextSeq frames.flatten := by
    intro frame member
    obtain ⟨first, firstMember, inFirst⟩ := mem_flatten.mp member
    exact none.noneCarries queued first firstMember frame inFirst
  have dumped : dumpDatagrams order state.conn.nextSeq []
        ((frames ++ answer.frames).map (datagram order)) =
      dumpMessages order answer.seq [] (yielded (answer.replies ++ [answer.ending])) := by
    rw [dumpDatagrams_frames, flatten_append, answer.split,
      dumpMessages_append, dumpMessages_of_noneCarries order stale, ← ownSeq]
  refine ⟨?_, ?_⟩
  · rw [GetsOwnAnswer, Connection.dumpCommand,
      Connection.dumpLoop_result order allSmall sent, dumped, dumpMessages_answer]
    · cases answer.outcome <;> rfl
    · rw [sent]
      exact Nat.lt_succ_self _
  · obtain ⟨rest, suffix, isRest⟩ := Connection.dumpLoop_queue order allSmall
      sent state.conn.nextSeq
      ((state.conn.send answer.datagrams).queue.length + 1) []
    rw [next, Connection.dumpCommand, isRest]
    refine ⟨sound.cached, rest, rfl, ?_⟩
    intro data member
    obtain ⟨frame, inRest, rfl⟩ := mem_map.mp member
    exact allSmall _ (mem_map_of_mem (suffix.subset inRest))

theorem getsOwnAnswer_of_undisturbed {event : Event order}
    (lawful : state.Lawful event) (undisturbed : state.Undisturbed event) :
    state.GetsOwnAnswer event ∧ (state.next event).Sound order := by
  cases event with
  | familiesChange families =>
      refine ⟨trivial, fun name info found => ?_, sound.queued⟩
      have same : families name = state.families name :=
        undisturbed name (Option.isSome_iff_exists.mpr ⟨info, found⟩)
      change ∃ family, families name = .ok family ∧ family.info = info
      rw [same]
      exact sound.cached name info found
  | clearCache =>
      refine ⟨trivial, ?_, sound.queued⟩
      intro name info found
      cases found
  | getFamily name answer =>
      cases found : state.conn.cache.lookup name with
      | some info => exact getFamily_cached sound found answer
      | none =>
          have notCached : ¬ (state.conn.cache.lookup name).isSome = true := by
            rw [found]
            exact Bool.false_ne_true
          obtain ⟨small, empty | ⟨unknown, none⟩⟩ := undisturbed.resolve_left notCached
          · exact getFamily_alone sound found lawful small empty
          · exact getFamily_unknown sound found lawful small unknown none
  | command answer =>
      obtain ⟨empty, small, clear⟩ := undisturbed
      exact command_alone sound lawful small empty clear
  | dumpCommand answer =>
      obtain ⟨small, none⟩ := undisturbed
      exact dumpCommand_own sound lawful small none

theorem visits_getOwnAnswers {events : List (Event order)}
    (lawful : ∀ visit ∈ state.visits events, visit.1.Lawful visit.2)
    (undisturbed : ∀ visit ∈ state.visits events, visit.1.Undisturbed visit.2) :
    ∀ visit ∈ state.visits events, visit.1.GetsOwnAnswer visit.2 := by
  induction events generalizing state with
  | nil => simp [visits]
  | cons event rest ih =>
      rw [visits] at lawful undisturbed ⊢
      obtain ⟨lawfulHere, lawfulLater⟩ := forall_mem_cons.mp lawful
      obtain ⟨here, later⟩ := forall_mem_cons.mp undisturbed
      obtain ⟨own, soundNext⟩ := getsOwnAnswer_of_undisturbed sound lawfulHere here
      exact forall_mem_cons.mpr ⟨own, ih soundNext lawfulLater later⟩

end

end State

/-- In a run of a new connection in which each call is undisturbed, each call
gets its own answer. -/
theorem calls_getOwnAnswers (order : ByteOrder) (families : Families) (counter : Nat)
    (events : List (Event order))
    (lawful : ∀ visit ∈ (start families counter).visits events, visit.1.Lawful visit.2)
    (undisturbed : ∀ visit ∈ (start families counter).visits events, visit.1.Undisturbed visit.2) :
    ∀ visit ∈ (start families counter).visits events, visit.1.GetsOwnAnswer visit.2 :=
  State.visits_getOwnAnswers (State.sound_start order families counter) lawful undisturbed

theorem replyHeader_typeFits (seq : Nat) : (replyHeader seq).nlmsgType < 256 ^ 2 := by
  simp [replyHeader, NlMsgType.ERROR]

def errorFrame (order : ByteOrder) (code seq : Nat) (seqFits : seq < 2 ^ 32) : Frame where
  header := replyHeader seq
  payload := replyPayload order code seq
  lenRight := by simp [replyHeader, replyPayload, asBytes_length, NLMSG_HDRLEN]
  lenFits := by simp [replyHeader]
  typeFits := replyHeader_typeFits seq
  flagsFit := zero_lt_half
  seqFits := seqFits
  pidFits := zero_lt_word

/-- An answer of replies in one datagram each, and a code. -/
def plainAnswer (order : ByteOrder) (seq : Nat) (seqFits : seq < 2 ^ 32) (replies : List Frame)
    (repliesOwn : ∀ frame ∈ replies, IsReply seq frame)
    (code : Nat) (codeFits : code < 2 ^ 32) : Answer order where
  seq := seq
  replies := replies.map fun frame => [frame]
  ending := errorFrame order code seq seqFits
  verdict :=
    { errno := (BitVec.ofNat 32 code).toInt
      msg := requestHeader seq }
  repliesWhole := by simp
  repliesOwn := by simpa using repliesOwn
  endingOwn := rfl
  endingError := rfl
  verdictRead := fromBytes_replyPayload order codeFits seqFits

/-- A reply of a family's command. -/
def genlFrame (seq : Nat) (payload : List UInt8) (lenFits : NLMSG_HDRLEN + payload.length < 256 ^ 4)
    (seqFits : seq < 256 ^ 4) : Frame where
  header :=
    { nlmsgLen := NLMSG_HDRLEN + payload.length
      nlmsgType := 16
      nlmsgFlags := 0
      nlmsgSeq := seq
      nlmsgPid := 0 }
  payload := payload
  lenRight := rfl
  lenFits := lenFits
  typeFits := minType_lt_half
  flagsFit := zero_lt_half
  seqFits := seqFits
  pidFits := zero_lt_word

theorem isReply_genlFrame {seq : Nat} {payload : List UInt8}
    {lenFits : NLMSG_HDRLEN + payload.length < 256 ^ 4} {seqFits : seq < 256 ^ 4} :
    IsReply seq (genlFrame seq payload lenFits seqFits) where
  own := rfl
  notError := rfl
  notDone := rfl

theorem noNul_of_all {bytes : List UInt8} (noZero : bytes.all (· != 0) = true) :
    ∀ byte ∈ bytes, byte ≠ 0 :=
  fun byte member => bne_iff_ne.mp (all_eq_true.mp noZero byte member)

/-- The controller's own family. -/
def nlctrl : Family where
  name :=
    { text := "nlctrl"
      short := by decide
      noNul := noNul_of_all (by decide) }
  id := 16
  version := 2
  hdrSize := 0
  maxAttr := 10
  ops := []
  mcgrps :=
    [({ text := "notify"
        short := by decide
        noNul := noNul_of_all (by decide) }, 16)]
  opsShort := by decide
  mcgrpsFew := by decide

/-- The kernel answers for every name with the controller. -/
def onlyNlctrl : Families :=
  fun name => if name = "nlctrl" then .ok nlctrl else .error ENOENT

/-- The reply that describes the controller. -/
def nlctrlFrame : Frame :=
  genlFrame 2 ([1, 2, 0, 0] ++ encodeAll .little (nlctrl.attrs .little))
    (by decide +kernel) (by decide)

/-- A command that is accepted, and then a query for the controller. -/
def commandThenFamily : List (Event .little) :=
  [.command (plainAnswer .little 1 (by decide) [] (by simp) 0 (by decide)), .getFamily "nlctrl"
      (plainAnswer .little 2 (by decide) [nlctrlFrame]
        (forall_mem_singleton.mpr isReply_genlFrame) 0 (by decide))]

/-- Both get their own answers. -/
theorem calls_getOwnAnswers_commandThenFamily :
    ((start onlyNlctrl 1).visits commandThenFamily).length = 2 ∧
      ∀ visit ∈ (start onlyNlctrl 1).visits commandThenFamily, visit.1.GetsOwnAnswer visit.2 := by
  refine ⟨rfl, calls_getOwnAnswers .little onlyNlctrl 1 commandThenFamily ?_ ?_⟩
  · refine forall_mem_cons.mpr ⟨rfl, forall_mem_singleton.mpr ⟨by decide +kernel, rfl, ?_⟩⟩
    exact ⟨nlctrlFrame, [], [], [1, 2, 0, 0], rfl, rfl, rfl⟩
  · refine forall_mem_cons.mpr
      ⟨⟨rfl, ?_, Or.inr rfl⟩, forall_mem_singleton.mpr (Or.inr ⟨?_, Or.inl ?_⟩)⟩
    · unfold State.Small
      decide +kernel
    · unfold State.Small
      decide +kernel
    · decide +kernel

/-- The answer to a command that is accepted after a reply. -/
def acceptedAnswer : Answer .little :=
  plainAnswer .little 1 (by decide)
    [genlFrame 1 [1, 1, 0, 0] (by decide) one_lt_word]
    (forall_mem_singleton.mpr isReply_genlFrame) 0 (by decide)

def rejectedAnswer : Answer .little :=
  plainAnswer .little 2 (by decide) [] (by simp) (2 ^ 32 - 22) (by decide)

/-- The rejected command returns the acknowledgement of the accepted one. -/
theorem rejectedCommand_returns :
    (∀ visit ∈ (start onlyNlctrl 1).visits [.command acceptedAnswer, .command rejectedAnswer],
      visit.1.Lawful visit.2) ∧
      ¬ ∀ visit ∈ (start onlyNlctrl 1).visits [.command acceptedAnswer, .command rejectedAnswer],
        visit.1.GetsOwnAnswer visit.2 := by
  have ownSeq : rejectedAnswer.seq =
      ((start onlyNlctrl 1).next (.command acceptedAnswer)).conn.nextSeq := by
    decide +kernel
  have returns :
      (((start onlyNlctrl 1).next (.command acceptedAnswer)).conn.command
          .little rejectedAnswer.datagrams).1.map Except.toOption =
        some (some (datagram .little [acceptedAnswer.ending])) := by
    decide +kernel
  refine ⟨forall_mem_cons.mpr ⟨rfl, forall_mem_singleton.mpr ownSeq⟩, fun own => ?_⟩
  have second := (forall_mem_cons.mp own).2 _ mem_cons_self
  obtain ⟨accepted, _⟩ | ⟨_, isError⟩ := second
  · exact absurd accepted (by decide +kernel)
  · rw [isError] at returns
    cases returns

end Nlink.Generic
