import CapnpJanet.Logic.Exchange
import CapnpJanet.Rpc.Accounts

/-!
# Replies and notices

A response or a notice is not answered, with one exception: an `Unimplemented`
or an `Abort` is echoed like any other message that is not implemented.  As long
as no such message arrives, two vats that are wired to each other exchange a
bounded number of frames for each request.
-/

namespace CapnpJanet.Rpc

open Builder Run Exchange

/-! ## One message -/

/-- The frame that echoes a message which is not implemented, if it can be
built. -/
def Incoming.echo (msg : Incoming) : Option (List UInt8) :=
  match unimplementedEcho msg.message msg.root msg.left Builder.init with
  | .error _ _ => none
  | .ok _ b => b.serialize.toOption

/-- The message is an `Unimplemented` or an `Abort` that can be echoed. -/
def Incoming.Bounces (msg : Incoming) : Prop :=
  (msg.which = msgUnimplemented ∨ msg.which = msgAbort) ∧ msg.echo.isSome

instance (msg : Incoming) : Decidable msg.Bounces := inferInstanceAs (Decidable (_ ∧ _))

section
variable {env : Env} {data : List UInt8} {msg : Incoming} {conn : Conn} {vat : Vat}

theorem handleReturn_sent (m : Message) (ret : Ptr) (frame : List UInt8) (left : Nat) (w : World) :
    (handleReturn m ret frame left w).sent = w.sent := by
  unfold handleReturn
  split
  · rfl
  · split
    · rfl
    · split
      · rfl
      · rfl

theorem handleRelease_sent (m : Message) (rel : Ptr) (w : World) :
    (handleRelease m rel w).sent = w.sent := by
  unfold handleRelease
  dsimp only
  split
  · rfl
  · rfl

/-- What is sent for a message that is not implemented. -/
theorem sendUnimplemented_sent (w : World) :
    (w.sendUnimplemented env msg.message msg.root msg.left).2.sent = w.sent ++ msg.echo.toList := by
  unfold World.sendUnimplemented World.build Incoming.echo
  cases unimplementedEcho msg.message msg.root msg.left Builder.init with
  | error rc b => exact (List.append_nil _).symm
  | ok _ b =>
      dsimp only
      unfold World.flush
      cases b.serialize with
      | error rc => exact (List.append_nil _).symm
      | ok flat => rfl

/-- What is sent for an `Unimplemented` or an `Abort`. -/
theorem handle_sent_of_bounce (read : readIncoming data = some msg)
    (which : msg.which = msgUnimplemented ∨ msg.which = msgAbort) :
    (handle env data conn vat).2.sent = msg.echo.toList := by
  have sent : ((World.start conn vat).sendUnimplemented env msg.message msg.root msg.left).2.sent =
      msg.echo.toList := sendUnimplemented_sent _
  rw [handle, read]
  dsimp only
  rw [handleIncoming]
  rcases which with which | which
  · rw [which]
    exact sent
  · rw [which]
    exact sent

/-- Nothing is sent for any other message that asks nothing. -/
theorem handle_silent (read : readIncoming data = some msg) (asksNothing : msg.AsksNothing)
    (other : ¬(msg.which = msgUnimplemented ∨ msg.which = msgAbort)) :
    (handle env data conn vat).2.sent = [] := by
  rw [handle, read]
  dsimp only
  rw [handleIncoming]
  rcases asksNothing with reply | ⟨which, noStruct⟩
  · rcases reply with which | which | which | which | which | ⟨which, isStruct, context⟩
    · rw [which]
      exact handleReturn_sent _ _ _ _ _
    · rw [which]
      rfl
    · rw [which]
      exact handleRelease_sent _ _ _
    · exact absurd (.inl which) other
    · exact absurd (.inr which) other
    · rw [which]
      change (handleDisembargo env msg.message msg.body msg.left (World.start conn vat)).2.sent = []
      rw [handleDisembargo, if_neg (not_not.mpr isStruct), context]
      rfl
  · rw [which]
    change (handleDisembargo env msg.message msg.body msg.left (World.start conn vat)).2.sent = []
    rw [handleDisembargo, if_pos noStruct]
    rfl

/-- A reply or a notice is not answered unless it bounces. -/
theorem reply_silent_iff (read : readIncoming data = some msg) (asksNothing : msg.AsksNothing) :
    (handle env data conn vat).2.sent = [] ↔ ¬msg.Bounces := by
  by_cases which : msg.which = msgUnimplemented ∨ msg.which = msgAbort
  · rw [handle_sent_of_bounce read which, Option.toList_eq_nil_iff, Incoming.Bounces]
    simp [which]
  · exact iff_of_true (handle_silent read asksNothing which) fun bounces => which bounces.1

/-- A message is answered with a few notices. -/
theorem Handling.notices {c c' : Conn} {v v' : Vat} {frames : List (List UInt8)}
    (handling : Handling msg c v c' v' frames) (sound : Sound c v) :
    frames.length ≤ maxJoinParts ∧ ∀ flat ∈ frames, Notice flat := by
  have none : ([] : List (List UInt8)).length ≤ maxJoinParts ∧
      ∀ flat ∈ ([] : List (List UInt8)), Notice flat := ⟨Nat.zero_le _, nofun⟩
  have one {flat : List UInt8} (notice : Notice flat) :
      [flat].length ≤ maxJoinParts ∧ ∀ reply ∈ [flat], Notice reply := by
    refine ⟨show 1 ≤ maxJoinParts by decide, fun reply member => ?_⟩
    rw [List.mem_singleton.mp member]
    exact notice
  cases handling with
  | quiet _ _ _ => exact none
  | finished _ => exact none
  | released _ => exact none
  | refused _ _ isReturn _ => exact one (notice_of_returnOf isReturn.read)
  | bootstrapped _ _ isReturn _ => exact one (notice_of_returnOf isReturn.read)
  | called _ _ isReturn => exact one (notice_of_returnOf isReturn.read)
  | provided _ _ _ isReturn => exact one (notice_of_returnOf isReturn.read)
  | taken _ _ _ _ isReturn _ => exact one (notice_of_returnOf isReturn.read)
  | held _ _ _ _ _ => exact none
  | lifted _ isReturn => exact one (notice_of_returnOf isReturn.read)
  | joinRefused _ _ isReturn => exact one (notice_of_returnOf isReturn.read)
  | joined _ _ _ => exact none
  | @completed slot pnum c₁ frames _ place _ answers =>
      obtain ⟨jid, pcount, -, -, few, found, -⟩ := joinPlace_some place
      obtain ⟨-, -, count, -, -, -⟩ := joinSlotFind_some sound.joins found
      refine ⟨?_, fun flat member => ?_⟩
      · rw [answers.length_eq]
        exact count.trans_le few
      · obtain ⟨i, -, isReturn⟩ := answers.mem member
        exact notice_of_returnOf isReturn.read
  | echoed _ _ _ notice => exact one notice

end

/-! ## Two vats -/

namespace Net

/-- A vat receives a frame on its connection 0. -/
def receive (s : Net) (env : Env) (data : List UInt8) : Net × List (List UInt8) :=
  (s.step (.deliver 0 env data), s.sends (.deliver 0 env data))

/-- What a vat does without hearing from the other: its application works, or a
frame arrives on another connection. -/
abbrev Work : Type := { a : Action // ∀ env data, a ≠ .deliver 0 env data }

/-- A vat works on its own. -/
def work (s : Net) (a : Work) : Net := s.step a.1

/-- The frame asks something of the vat that reads it. -/
def asksSomething (data : List UInt8) : Bool :=
  (readIncoming data).any fun msg => !decide msg.AsksNothing

/-- The frame does not bounce. -/
def Settles (data : List UInt8) : Prop := ∀ msg, readIncoming data = some msg → ¬msg.Bounces

theorem asksSomething_of_notice {data : List UInt8} (notice : Notice data) :
    asksSomething data = false := by
  unfold asksSomething
  cases read : readIncoming data with
  | none => rfl
  | some msg => simp [notice msg read]

theorem polite : Polite receive work Sound asksSomething Settles maxJoinParts where
  kept s env data sound := (does sound (.deliver 0 env data)).sound sound
  acted s a sound := (does sound a.1).sound sound
  bounded s env data sound := by
    cases read : readIncoming data with
    | none =>
        rw [receive, sends, handle, read]
        exact Nat.zero_le _
    | some msg => exact ((handling_deliver sound env read).notices (sound 0)).1
  answers s env data sound := by
    cases read : readIncoming data with
    | none =>
        rw [receive, sends, handle, read]
        exact fun reply member => absurd member List.not_mem_nil
    | some msg =>
        intro reply member
        exact asksSomething_of_notice
          (((handling_deliver sound env read).notices (sound 0)).2 reply member)
  silent s env data _ asks settles := by
    rw [receive, sends]
    cases read : readIncoming data with
    | none =>
        rw [handle, read]
        rfl
    | some msg =>
        rw [asksSomething, read, Option.any_some, Bool.not_eq_false', decide_eq_true_iff] at asks
        exact (reply_silent_iff read asks).mpr (settles msg read)

/-- Replies are not answered: no connection answers a reply or a notice,
unless it is an `Unimplemented` or an `Abort` that can be echoed; and in every
run of two vats that are wired to each other in which none of these arrives, at
most sixteen frames are sent for each request. -/
theorem replies_not_answered {s : Line Net (List UInt8)}
    (reached : Reached (Line.init fun _ => init) (Line.step receive work) (Line.Arrives Settles) s) :
    (∀ env data conn vat msg, readIncoming data = some msg → msg.IsReply →
        ((handle env data conn vat).2.sent = [] ↔ ¬msg.Bounces)) ∧
      s.replies ≤ maxJoinParts * s.requests := by
  refine ⟨fun env data conn vat msg read reply => ?_, ?_⟩
  · exact reply_silent_iff read (.inl reply)
  · exact polite.replies_le (fun _ => sound_init) reached

/-- A test for events in which the frame that arrives does not bounce. -/
def settles (s : Line Net (List UInt8)) : Event (List UInt8) Env Work → Bool
  | .deliver side _ =>
      (s.inbox side).head?.all fun data => (readIncoming data).all fun msg => !decide msg.Bounces
  | _ => true

theorem settles_sound {s : Line Net (List UInt8)} {e : Event (List UInt8) Env Work}
    (passed : settles s e = true) : Line.Arrives Settles s e := by
  rintro side env data rest rfl queue msg read
  rw [settles, queue, List.head?_cons, Option.all_some, read, Option.all_some] at passed
  simpa using passed

/-- A frame is sent to the first vat, and the first `n` frames on the line
arrive in turn. -/
def rally (data : List UInt8) (n : Nat) : List (Event (List UInt8) Env Work) :=
  .request true data :: (List.range n).map fun i => .deliver (i % 2 == 0) (returningEnv 0)

/-- A `Bootstrap` is answered once, and its answer is not answered. -/
theorem replies_not_answered_bootstrap :
    let s := (rally (bootstrapFrame 5) 4).foldl (Line.step receive work) (Line.init fun _ => init)
    s.replies = 1 ∧ s.replies ≤ maxJoinParts * s.requests := by
  have reached : Reached (Line.init fun _ => init) (Line.step receive work) (Line.Arrives Settles)
      ((rally (bootstrapFrame 5) 4).foldl (Line.step receive work) (Line.init fun _ => init)) :=
    Reached.start.of_passes (fun _ _ => settles_sound) (by decide +kernel)
  exact ⟨by decide +kernel, (replies_not_answered reached).2⟩

/-- An `Abort` without a reason. -/
def abortFrame : List UInt8 :=
  [0, 0, 0, 0, 3, 0, 0, 0,
   0, 0, 0, 0, 1, 0, 1, 0,
   1, 0, 0, 0, 0, 0, 0, 0,
   0, 0, 0, 0, 0, 0, 0, 0]

/-- An `Abort` is answered, and two vats go on to answer each other. -/
theorem abort_bounces :
    (∃ msg, readIncoming abortFrame = some msg ∧ msg.IsReply ∧
        (handle (returningEnv 0) abortFrame Conn.init Vat.init).2.sent ≠ []) ∧
      let s := (rally abortFrame 5).foldl (Line.step receive work) (Line.init fun _ => init)
      s.requests = 1 ∧ s.replies = 5 ∧ s.pending (fun _ => true) = 1 := by
  have reply : ((readIncoming abortFrame).any fun msg => decide msg.IsReply) = true := by
    decide +kernel
  obtain ⟨msg, read, isReply⟩ := (Option.any_eq_true _ _).mp reply
  refine ⟨⟨msg, read, of_decide_eq_true isReply, ?_⟩, ?_⟩
  · decide +kernel
  · decide +kernel

end Net

end CapnpJanet.Rpc
