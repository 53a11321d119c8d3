import CapnpJanet.Rpc.Told

/-!
# The two halves of the codec

A frame is written by the function that an application calls, and read by a
handler of the peer, by offsets that either side has of its own.  The two agree:
the peer reads what was meant, does what a vat does that is told so, and the
frame that it answers with carries its answer.
-/

namespace CapnpJanet.Rpc

open ByteMemory Builder Outcome Run

/-! ## What the functions say -/

/-- What a question means, where the parameters of a call are read from the
segments that the caller has filled in. -/
def Request.Means (qid : Nat) (said : Said) : Request → Prop
  | .bootstrap => said = .bootstrap qid
  | .call importedCap interfaceId methodId dwords pwords fill => ∃ params b m,
      beginCall importedCap interfaceId methodId dwords pwords qid Builder.init = .ok params b ∧
        ReadFrom m (calls fill.ops ⟨[], [params]⟩ b).2 ∧
          said = .call qid importedCap interfaceId methodId m
            (Message.structAt params.seg params.word dwords pwords) []
  | .provide importedCap host port nonce => ∃ text, host = some text ∧
      said = .provide qid importedCap nonce text port
  | .accept nonce embargo => said = .accept qid nonce embargo

/-- What the functions mean that an application calls to say something. -/
def Deed.Means (c : Conn) (said : Said) : Deed → Prop
  | .ask _ request => request.Means c.nextQuestionId said
  | .finish _ qid => said = .finish qid
  | .release _ importId count => said = .release importId count
  | .disembargo _ provideQid => said = .disembargo provideQid
  | _ => False

/-- Such a call of a function, with arguments of their types, and for a question
with a free entry in its table. -/
inductive Deed.Speaks (c : Conn) : Deed → Prop
  | ask {env : Env} {request : Request} {i : Nat} (slot : c.questionSlot = some i)
      (qidLt : c.nextQuestionId < 2 ^ 32) (sound : request.Sound c.nextQuestionId) :
      Speaks c (.ask env request)
  | finish {env : Env} {qid : Nat} (qidLt : qid < 2 ^ 32) : Speaks c (.finish env qid)
  | release {env : Env} {importId count : Nat} (idLt : importId < 2 ^ 32)
      (countLt : count < 2 ^ 32) : Speaks c (.release env importId count)
  | disembargo {env : Env} {provideQid : Nat} (qidLt : provideQid < 2 ^ 32) :
      Speaks c (.disembargo env provideQid)

/-- A frame is understood: it is read as what it says, and in every state that a vat
can reach, handling it is doing what the vat does when it is told so. -/
def Understood (flat : List UInt8) (said : Said) : Prop :=
  Hears flat (Incoming.Says · said) ∧ ∀ s, Reached Net.init Net.step (fun _ _ => True) s → ∀ k env,
    (said.respond env (s.conn k) s.vat).Done (handle env flat (s.conn k) s.vat).2

theorem understood_of_read {flat : List UInt8} {msg : Incoming} {said : Said}
    (read : readIncoming flat = some msg) (spoken : msg.Says said) : Understood flat said :=
  ⟨⟨msg, read, spoken⟩,
    fun _ reached k env => handle_done env read spoken (Net.sound_of_reached reached k)⟩

/-- What is heard of a question is what it means. -/
theorem means_of_heard {qid : Nat} {msg : Incoming} {request : Request}
    (heard : request.Heard qid msg) (sound : request.Sound qid) : ∃ said, request.Means qid said ∧ msg.Says said := by
  cases sound with
  | bootstrap => exact ⟨.bootstrap qid, rfl, heard⟩
  | call _ _ _ _ _ =>
      obtain ⟨params, b, begun, hears⟩ := heard
      exact ⟨_, ⟨params, b, msg.message, begun, hears.read, rfl⟩, hears.qid, hears.target,
        hears.interface, hears.method, rfl, hears.params_eq, hears.notes⟩
  | provide _ _ _ _ =>
      exact ⟨_, ⟨_, rfl, rfl⟩, heard⟩
  | accept _ =>
      obtain ⟨which, named, -, presents, flag⟩ := heard
      exact ⟨_, rfl, which, named, presents, flag⟩

/-- A question whose message can be built hands its frame to the callback,
whatever that returns. -/
theorem ask_sent (w : World) (env : Env) {message : Nat → BuildM Unit} {i : Nat} {b : Builder}
    {flat : List UInt8} (slot : w.conn.questionSlot = some i)
    (built : message w.conn.nextQuestionId Builder.init = .ok () b)
    (done : b.serialize = .ok flat) : (w.ask env message).2.sent = w.sent ++ [flat] := by
  unfold World.ask
  rw [Conn.questionClaim_eq, slot]
  dsimp only [Option.map_some]
  rw [build_flush_eq _ env built done]
  dsimp only
  split
  · rfl
  · rfl

/-- What the functions say is understood. -/
theorem deed_understood (c : Conn) (v : Vat) {d : Deed} (speaks : d.Speaks c) :
    ∃ flat said, (d.run c v).sent = [flat] ∧ d.Means c said ∧ Understood flat said := by
  cases speaks with
  | @ask env request i slot qidLt sound =>
      obtain ⟨b, flat, built, done, msg, read, heard⟩ := request_heard qidLt sound
      obtain ⟨said, means, spoken⟩ := means_of_heard heard sound
      refine ⟨flat, said, ?_, means, understood_of_read read spoken⟩
      have run : (World.start c v).request env request =
          (World.start c v).ask env request.message := by
        cases sound <;> rfl
      rw [Deed.run, run]
      exact ask_sent (World.start c v) env slot built done
  | @finish env qid qidLt =>
      have talks : (Deed.finish env qid).Talks c := .finish qidLt
      obtain ⟨flat, run, msg, read, heard⟩ := deed_heard c v talks
      exact ⟨flat, _, congrArg World.sent run, rfl, understood_of_read read heard⟩
  | @release env importId count idLt countLt =>
      have talks : (Deed.release env importId count).Talks c := .release idLt countLt
      obtain ⟨flat, run, msg, read, heard⟩ := deed_heard c v talks
      exact ⟨flat, _, congrArg World.sent run, rfl, understood_of_read read heard⟩
  | @disembargo env provideQid qidLt =>
      have talks : (Deed.disembargo env provideQid).Talks c := .disembargo qidLt
      obtain ⟨flat, run, msg, read, heard⟩ := deed_heard c v talks
      exact ⟨flat, _, congrArg World.sent run, rfl, understood_of_read read heard⟩

/-! ## Calls with descriptors -/

/-- A `Call` that an application builds with descriptors of third-party
capabilities: its arguments are of their types, what is filled in keeps to the
parameters, and the frame keeps to what a builder and a reader allow. -/
structure Introducing (importedCap interfaceId methodId dwords pwords : Nat) (fill : List BuildOp)
    (caps : List ThirdPartyCap) (qid : Nat) (b : Builder) : Prop where
  typed : CallTyped importedCap interfaceId methodId dwords pwords
  qidLt : qid < 2 ^ 32
  fits : ∀ cap ∈ caps, cap.Fits
  spares : FillSpares importedCap interfaceId methodId dwords pwords fill qid
  built : introducingCall importedCap interfaceId methodId dwords pwords fill caps qid
    Builder.init = .ok () b
  limit : b.InLimit
  few : b.nsegs ≤ maxSegments
  covered : dwords + pwords + 29 * caps.length + 64 ≤ defaultTraversalWords

/-- The descriptors change nothing of what has been filled in. -/
theorem Introducing.filled {importedCap interfaceId methodId dwords pwords qid : Nat}
    {fill : List BuildOp} {caps : List ThirdPartyCap} {b : Builder}
    (introducing : Introducing importedCap interfaceId methodId dwords pwords fill caps qid b) :
    ∃ params b₁, beginCall importedCap interfaceId methodId dwords pwords qid Builder.init =
        .ok params b₁ ∧ Writes (slotBytes 0 12) (calls fill ⟨[], [params]⟩ b₁).2 b := by
  obtain ⟨b₂, first, b₃, called, listed, written⟩ := introducingCall_parts introducing.built
  obtain ⟨-, -, wf⟩ := callMessage_kept called
  obtain ⟨params, b₁, begun, filled⟩ := bind_eq_ok.mp called
  obtain ⟨writes, -⟩ := tableAt_of_run wf introducing.fits listed written introducing.limit
  refine ⟨params, b₁, begun, ?_⟩
  cases filled
  exact writes

/-- A `Call` with descriptors is understood. -/
theorem introducing_understood {importedCap interfaceId methodId dwords pwords qid : Nat}
    {fill : List BuildOp} {caps : List ThirdPartyCap} {b : Builder}
    (introducing : Introducing importedCap interfaceId methodId dwords pwords fill caps qid b) :
    ∃ flat params b₁ m, b.serialize = .ok flat ∧
      beginCall importedCap interfaceId methodId dwords pwords qid Builder.init = .ok params b₁ ∧
      Writes (slotBytes 0 12) (calls fill ⟨[], [params]⟩ b₁).2 b ∧ ReadFrom m b ∧
      Understood flat (.call qid importedCap interfaceId methodId m
        (Message.structAt params.seg params.word dwords pwords)
          (caps.map ThirdPartyCap.introduction)) := by
  obtain ⟨params, b₁, begun, frame⟩ := callFrame_introducingCall introducing.typed introducing.qidLt
    introducing.fits introducing.spares introducing.built introducing.limit
  obtain ⟨params', b₁', begun', writes⟩ := introducing.filled
  rw [begun] at begun'
  cases begun'
  obtain ⟨flat, done⟩ := frame.serializes
  have framable : b.Framable := by
    refine ⟨introducing.few.trans_lt (by decide), fun s => ?_⟩
    exact (introducing.limit s).trans_lt (by decide)
  obtain ⟨msg, read, hears⟩ := callFrame_heard frame introducing.typed introducing.fits framable
    introducing.few introducing.covered done
  refine ⟨flat, params, b₁, msg.message, done, begun, writes, hears.read, ?_⟩
  exact understood_of_read read ⟨hears.qid, hears.target, hears.interface, hears.method, rfl,
    hears.params_eq, hears.notes⟩

/-- The two halves of the codec agree.  Handling the frame that a function builds,
in any state that a vat can reach, is doing what the vat does when it is told the
arguments of the function; so is handling a `Call` with descriptors of
third-party capabilities.  And the frame that the vat answers with carries its
answer: whoever has the question open reads it. -/
theorem codec_halves_agree :
    (∀ c v d, Deed.Speaks c d → ∃ flat said, (d.run c v).sent = [flat] ∧ d.Means c said ∧
      Understood flat said) ∧
    ∀ importedCap interfaceId methodId dwords pwords fill caps qid b,
      Introducing importedCap interfaceId methodId dwords pwords fill caps qid b →
        ∃ flat params b₁ m, b.serialize = .ok flat ∧
          beginCall importedCap interfaceId methodId dwords pwords qid Builder.init =
            .ok params b₁ ∧
          Writes (slotBytes 0 12) (calls fill ⟨[], [params]⟩ b₁).2 b ∧ ReadFrom m b ∧
          Understood flat (.call qid importedCap interfaceId methodId m
            (Message.structAt params.seg params.word dwords pwords)
              (caps.map ThirdPartyCap.introduction)) :=
  ⟨fun c v _ speaks => deed_understood c v speaks,
    fun _ _ _ _ _ _ _ _ _ introducing => introducing_understood introducing⟩

/-- A capability of a third vat. -/
def descriptor (nonce : Nat) : ThirdPartyCap := ⟨[104], 80, nonce, 3⟩

theorem descriptor_fits {nonce : Nat} (nonceLt : nonce < 2 ^ 64) : (descriptor nonce).Fits :=
  ⟨show 1 < maxHost by decide, show 80 < 2 ^ 16 by decide, nonceLt, show 3 < 2 ^ 32 by decide⟩

/-- A call without parameters, with descriptors under the first nonces, is built in
one segment. -/
def introducesInOne (n : Nat) : Bool :=
  match introducingCall 0 7 1 0 0 [] ((List.range n).map descriptor) 0 Builder.init with
  | .ok _ b => b.nsegs == 1 && (b.seg 0).words ≤ 1024
  | .error _ _ => false

/-- Such a call can be sent. -/
theorem introducing_descriptors {n : Nat} (few : n ≤ 16) (one : introducesInOne n = true) :
    ∃ b, Introducing 0 7 1 0 0 [] ((List.range n).map descriptor) 0 b := by
  have fits : ∀ cap ∈ (List.range n).map descriptor, cap.Fits := by
    intro cap member
    obtain ⟨nonce, small, rfl⟩ := List.mem_map.mp member
    exact descriptor_fits ((List.mem_range.mp small).trans_le (few.trans (by decide)))
  unfold introducesInOne at one
  split at one
  · next b built =>
    simp only [Bool.and_eq_true, beq_iff_eq, decide_eq_true_eq] at one
    obtain ⟨nsegs, words⟩ := one
    refine ⟨b, ⟨by decide, by decide, by decide, by decide, by decide⟩, by decide, fits,
      fun _ _ _ => ⟨fun _ => le_rfl, fun _ _ _ _ _ _ => rfl⟩, built, ?_, ?_, ?_⟩
    · refine inLimit_of_segments (introducingCall_wf fits built) fun s inside => ?_
      obtain rfl : s = 0 := by omega
      exact words.trans (by decide)
    · rw [nsegs]
      decide
    · rw [List.length_map, List.length_range]
      unfold defaultTraversalWords
      omega
  · cases one

/-- A vat without exports notes the descriptors of a call. -/
theorem introduces_descriptors {n : Nat} (few : n ≤ 16) (one : introducesInOne n = true) :
    ∃ b flat, introducingCall 0 7 1 0 0 [] ((List.range n).map descriptor) 0 Builder.init =
        .ok () b ∧ b.serialize = .ok flat ∧
      (handle (returningEnv 0) flat Conn.init Vat.init).2.conn =
        Conn.init.addIntroductions
          (((List.range n).map descriptor).map ThirdPartyCap.introduction) := by
  obtain ⟨b, introducing⟩ := introducing_descriptors few one
  obtain ⟨flat, params, b₁, m, done, -, -, -, understood⟩ := introducing_understood introducing
  have handled := understood.2 Net.init Reached.start 0 (returningEnv 0)
  obtain ⟨reply, -, conn, -⟩ := handled.answers 0 .exception rfl
  exact ⟨b, flat, introducing.built, done, conn⟩

/-- A call of the first export of a vat is understood, and so is a call with one
descriptor. -/
theorem codec_halves_agree_calls :
    (∃ call d reply, ((Deed.ask (returningEnv 0) (.call 0 7 1 1 1 Fill.null)).run Conn.init
        Vat.init).sent = [call] ∧
      (handle (returningEnv 0) call servingConn Vat.init).2.dispatched = [d] ∧
        d.server = 1 ∧ d.interfaceId = 7 ∧ d.methodId = 1 ∧
          (handle (returningEnv 0) call servingConn Vat.init).2.sent = [reply] ∧
            Carries reply 0 (.results [])) ∧
    ∃ b flat, introducingCall 0 7 1 0 0 [] [descriptor 0] 0 Builder.init = .ok () b ∧
      b.serialize = .ok flat ∧
        (handle (returningEnv 0) flat Conn.init Vat.init).2.conn.introductions 0 =
          (descriptor 0).introduction := by
  obtain ⟨deeds, calls⟩ := codec_halves_agree
  constructor
  · have reached : Reached Net.init Net.step (fun _ _ => True)
        (Net.init.step (.exportCap 0 1 1)) := Reached.start.step trivial
    have speaks : (Deed.ask (returningEnv 0) (.call 0 7 1 1 1 Fill.null)).Speaks Conn.init := by
      apply Deed.Speaks.ask (i := 0)
      · rfl
      · decide
      · apply Request.Sound.call
        · constructor <;> decide
        · exact fun _ _ _ => ⟨fun _ => le_rfl, fun _ _ _ _ _ _ => rfl⟩
        · rfl
        · decide +kernel
        · decide
    obtain ⟨call, said, sent, ⟨params, b, m, -, -, rfl⟩, understood⟩ :=
      deeds Conn.init Vat.init _ speaks
    have handled := understood.2 _ reached 0 (returningEnv 0)
    obtain ⟨reply, replied, -, carries⟩ := handled.answers 0 (.results []) rfl
    refine ⟨call, _, reply, sent, handled.dispatched_eq, rfl, rfl, rfl, replied, carries ?_⟩
    change (callReply 0 []).nsegs ≤ maxSegments
    delta callReply
    rw [resultsBuilder_eq]
    exact show 1 ≤ maxSegments by decide
  · obtain ⟨b, introducing⟩ := introducing_descriptors (n := 1) (by decide) (by decide +kernel)
    obtain ⟨flat, params, b₁, m, done, -, -, -, understood⟩ := calls _ _ _ _ _ _ _ _ _ introducing
    have handled := understood.2 Net.init Reached.start 0 (returningEnv 0)
    obtain ⟨reply, -, conn, -⟩ := handled.answers 0 .exception rfl
    refine ⟨b, flat, introducing.built, done, ?_⟩
    exact congrArg (fun c => c.introductions 0) conn

/-- Of nine descriptors a vat notes eight.  And a field that is filled in where there
is no room for it replaces the pointer to the parameters, which the server then
sees as a list. -/
theorem codec_halves_differ :
    (∃ b flat, introducingCall 0 7 1 0 0 [] ((List.range 9).map descriptor) 0 Builder.init =
        .ok () b ∧ b.serialize = .ok flat ∧
      ∀ j < maxIntroductions, (handle (returningEnv 0) flat Conn.init Vat.init).2.conn.introductions
        j ≠ (descriptor 8).introduction) ∧
    ∃ flat, ((World.start Conn.init Vat.init).ask (returningEnv 0)
        (callMessage 0 7 1 0 0 [.setScalar 8 0 0 1])).2.sent = [flat] ∧
      (handle (returningEnv 0) flat servingConn Vat.init).2.dispatched.map
        (fun d => d.params.kind) = [.list] := by
  constructor
  · obtain ⟨b, flat, built, done, conn⟩ :=
      introduces_descriptors (n := 9) (by decide) (by decide +kernel)
    refine ⟨b, flat, built, done, fun j small => ?_⟩
    rw [conn]
    revert j
    decide +kernel
  · have kinds : (((World.start Conn.init Vat.init).ask (returningEnv 0)
        (callMessage 0 7 1 0 0 [.setScalar 8 0 0 1])).2.sent.map fun flat =>
          (handle (returningEnv 0) flat servingConn Vat.init).2.dispatched.map
            fun d => d.params.kind) = [[.list]] := by
      decide +kernel
    obtain ⟨flat, sent, same⟩ := List.map_eq_singleton_iff.mp kinds
    exact ⟨flat, sent, same⟩

end CapnpJanet.Rpc
