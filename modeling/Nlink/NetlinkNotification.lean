import Nlink.NetlinkFrames

namespace Nlink.Netlink

open Foundation List

/-!
# Notifications

A notification is a message that the kernel sends to its subscribers.  A stream
reads the messages of each datagram one by one, so it yields the same events
however notifications are put into datagrams.
-/

/-- A message that is sent to the subscribers. -/
structure Notification where
  msgType : Nat
  body : List UInt8

def Notification.frame (notification : Notification) (typeFits : notification.msgType < 256 ^ 2)
    (short : NLMSG_HDRLEN + notification.body.length < 256 ^ 4) : Frame where
  header :=
    { nlmsgLen := NLMSG_HDRLEN + notification.body.length
      nlmsgType := notification.msgType
      nlmsgFlags := 0
      nlmsgSeq := 0
      nlmsgPid := 0 }
  payload := notification.body
  lenRight := rfl
  lenFits := short
  typeFits := typeFits
  flagsFit := Nat.two_pow_pos 16
  seqFits := Nat.two_pow_pos 32
  pidFits := Nat.two_pow_pos 32

/-- The datagrams carry the messages in order. -/
def Carried (notifications : List Notification) (datagrams : List (List Frame)) : Prop :=
  List.Forall₂ (fun notification frame =>
      frame.header.nlmsgType = notification.msgType ∧ frame.payload = notification.body)
    notifications datagrams.flatten

theorem exists_carried {notifications : List Notification}
    (fit : ∀ notification ∈ notifications, notification.msgType < 256 ^ 2 ∧
      NLMSG_HDRLEN + notification.body.length < 256 ^ 4) :
    ∃ datagrams, Carried notifications datagrams := by
  induction notifications with
  | nil => exact ⟨[], .nil⟩
  | cons notification rest ih =>
      obtain ⟨⟨typeFits, short⟩, restFit⟩ := forall_mem_cons.mp fit
      obtain ⟨datagrams, carried⟩ := ih restFit
      exact ⟨[notification.frame typeFits short] :: datagrams, .cons ⟨rfl, rfl⟩ carried⟩

/-- Bytes off which no message can be read. -/
def NoMessage (order : ByteOrder) (junk : List UInt8) : Prop :=
  ∀ message rest, nextMessage order junk ≠ some (.ok message, rest)

/-- A datagram of messages that may end with bytes that are none. -/
structure Delivery (order : ByteOrder) where
  frames : List Frame
  junk : List UInt8
  noMessage : NoMessage order junk

def Delivery.bytes {order : ByteOrder} (delivery : Delivery order) : Datagram :=
  datagram order delivery.frames ++ delivery.junk

section

variable {ε : Type} (order : ByteOrder) (parse : Nat → List UInt8 → Option ε)

/-- What a parser of messages yields of a datagram; malformed messages are
skipped. -/
def eventsOfData (data : Datagram) : List ε :=
  (messageIter order data).filterMap fun result =>
    match result with
    | .ok (header, payload) => parse header.nlmsgType payload
    | .error _ => none

/-- The events that a stream yields of datagrams. -/
def eventsOf (datagrams : List (List Frame)) : List ε :=
  datagrams.flatMap fun frames => eventsOfData order parse (datagram order frames)

theorem eventsOf_frames (datagrams : List (List Frame)) :
    eventsOf order parse datagrams =
      datagrams.flatten.filterMap fun frame => parse frame.header.nlmsgType frame.payload := by
  have each : ∀ frames : List Frame, eventsOfData order parse (datagram order frames) =
      frames.filterMap fun frame => parse frame.header.nlmsgType frame.payload := by
    intro frames
    rw [eventsOfData, messageIter_datagram, filterMap_map]
    rfl
  rw [eventsOf, filterMap_flatten, List.flatMap]
  simp only [each]

/-- The events are those of the notifications, however they are split. -/
theorem eventsOf_carried {notifications : List Notification} {datagrams : List (List Frame)}
    (carried : Carried notifications datagrams) :
    eventsOf order parse datagrams =
      notifications.filterMap fun notification => parse notification.msgType notification.body := by
  rw [eventsOf_frames]
  unfold Carried at carried
  generalize datagrams.flatten = frames at carried ⊢
  induction carried with
  | nil => rfl
  | cons same _ ih => rw [filterMap_cons, filterMap_cons, ih, same.1, same.2]

theorem nextMessage_error {junk left : List UInt8} {error : Error}
    (next : nextMessage order junk = some (.error error, left)) : left = [] := by
  rw [nextMessage] at next
  split at next
  · cases next
  · split at next
    · cases next
      rfl
    · split at next <;> cases next
      rfl

theorem messagesFrom_nil (fuel : Nat) : messagesFrom order fuel [] = [] := by
  cases fuel <;> rfl

/-- Nothing but errors is read of bytes that are no messages. -/
theorem messagesFrom_noMessage {junk : List UInt8} (noMessage : NoMessage order junk)
    (fuel : Nat) : ∀ result ∈ messagesFrom order fuel junk, ∃ error, result = .error error := by
  intro result member
  cases fuel with
  | zero => cases member
  | succ fuel =>
      rw [messagesFrom] at member
      cases next : nextMessage order junk with
      | none =>
          rw [next] at member
          cases member
      | some found =>
          obtain ⟨first, left⟩ := found
          rw [next] at member
          cases first with
          | ok message => exact absurd next (noMessage message left)
          | error error =>
              cases nextMessage_error order next
              simp only [messagesFrom_nil] at member
              exact ⟨error, mem_singleton.mp member⟩

theorem messagesFrom_frames (frames : List Frame) (junk : List UInt8) (fuel : Nat) :
    messagesFrom order (frames.length + fuel) (datagram order frames ++ junk) =
      (frames.map fun frame => .ok frame.message) ++ messagesFrom order fuel junk := by
  induction frames with
  | nil => rw [length_nil, Nat.zero_add]; rfl
  | cons frame frames ih =>
      rw [datagram_cons, List.append_assoc, length_cons, Nat.succ_add, messagesFrom,
        frame.nextMessage_bytes]
      exact congrArg (List.cons _) ih

/-- A stream reads the messages of a datagram and skips what is none. -/
theorem eventsOfData_delivery (delivery : Delivery order) :
    eventsOfData order parse delivery.bytes =
      delivery.frames.filterMap fun frame => parse frame.header.nlmsgType frame.payload := by
  obtain ⟨frames, junk, noMessage⟩ := delivery
  have enough : frames.length ≤ (datagram order frames ++ junk).length := by
    rw [length_append]
    exact Nat.le_add_right_of_le (length_le_datagram order frames)
  obtain ⟨fuel, isFuel⟩ := Nat.exists_eq_add_of_le enough
  have noEvents : (messagesFrom order fuel junk).filterMap (fun result =>
      match result with
      | .ok (header, payload) => parse header.nlmsgType payload
      | .error _ => none) = [] := by
    rw [filterMap_eq_nil_iff]
    intro result member
    obtain ⟨error, rfl⟩ := messagesFrom_noMessage order noMessage fuel result member
    rfl
  rw [Delivery.bytes, eventsOfData, messageIter, isFuel, messagesFrom_frames,
    filterMap_append, noEvents, List.append_nil, filterMap_map]
  rfl

end

/-!
## What is reported, and what is due
-/

section

variable {ε : Type} {order : ByteOrder}

/-- However the messages are put into datagrams, what a stream reports of the
first datagrams is what is due of their messages. -/
def Reports (order : ByteOrder) (reported : Datagram → List ε) (due : Frame → List ε)
    (frames : List Frame) : Prop :=
  ∀ deliveries : List (Delivery order), deliveries.flatMap Delivery.frames = frames →
    ∀ count, (deliveries.take count).flatMap (fun delivery => reported delivery.bytes) =
      ((deliveries.take count).flatMap Delivery.frames).flatMap due

theorem noMessage_nil : NoMessage order [] := by
  intro message left next
  cases next

/-- A datagram of messages only. -/
def Delivery.whole (frames : List Frame) : Delivery order where
  frames := frames
  junk := []
  noMessage := noMessage_nil

/-- A stream that reports message by message reports what is due if and only if
it does so of each message. -/
theorem reports_iff {reported : Datagram → List ε} {each due : Frame → List ε}
    (byMessage : ∀ delivery : Delivery order,
      reported delivery.bytes = delivery.frames.flatMap each) (frames : List Frame) :
    Reports order reported due frames ↔ ∀ frame ∈ frames, each frame = due frame := by
  constructor
  · intro reports frame member
    obtain ⟨before, after, rfl⟩ := append_of_mem member
    have split := reports [.whole before, .whole [frame], .whole after] (by simp [Delivery.whole])
    have first := split 1
    have second := split 2
    simp only [take_succ_cons, take_zero, flatMap_cons, flatMap_nil,
      byMessage, Delivery.whole, List.append_nil, flatMap_append] at first second
    rw [first] at second
    exact append_cancel_left second
  · rintro same deliveries rfl count
    have inTake : ∀ frame ∈ (deliveries.take count).flatMap Delivery.frames,
        each frame = due frame := by
      intro frame member
      obtain ⟨delivery, taken, isFrame⟩ := mem_flatMap.mp member
      exact same frame (mem_flatMap.mpr ⟨delivery, mem_of_mem_take taken, isFrame⟩)
    simp only [byMessage]
    rw [← flatMap_assoc]
    exact flatMap_congr inTake

end

end Nlink.Netlink
