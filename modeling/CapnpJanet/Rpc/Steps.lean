import CapnpJanet.Rpc.System

/-!
# One step of a vat

What an action does to a vat and its connections, by cases.  Every stored id
stays sound, so the cases of `Handling` describe every message of every run.
-/

namespace CapnpJanet.Rpc

open Builder Run

namespace Net

/-- The frames that an action hands to the send callback of its connection. -/
def sends (s : Net) : Action → List (List UInt8)
  | .deliver k env data => (handle env data (s.conn k) s.vat).2.sent
  | _ => []

/-- The stored ids of every connection are sound. -/
def Sound (s : Net) : Prop := ∀ k, Rpc.Sound (s.conn k) s.vat

/-- What an action does. -/
inductive Does (s : Net) : Action → Net → Prop
  | unread {k : Nat} {env : Env} {data : List UInt8} (unread : readIncoming data = none) :
      Does s (.deliver k env data) s
  | handled {k : Nat} {env : Env} {data : List UInt8} {msg : Incoming} {w : World}
      (read : readIncoming data = some msg) (done : (handle env data (s.conn k) s.vat).2 = w)
      (handling : Handling msg (s.conn k) s.vat w.conn w.vat w.sent) :
      Does s (.deliver k env data) (s.handled k msg w)
  | exported {k server dispatch eid : Nat} {c : Conn}
      (exported : (s.conn k).exportCap server dispatch = (some eid, c)) :
      Does s (.exportCap k server dispatch) (s.setConn k c)
  | full {k server dispatch : Nat} : Does s (.exportCap k server dispatch) s
  /-- The application works on tables that no message of the peer names. -/
  | worked {a : Action} {k : Nat} {c : Conn} (quiet : ∀ k' env data, a ≠ .deliver k' env data)
      (exports : c.exports = (s.conn k).exports) (answers : c.answers = (s.conn k).answers)
      (joins : c.joins = (s.conn k).joins) : Does s a (s.setConn k c)

@[simp]
theorem setConn_same (s : Net) (k : Nat) : s.setConn k (s.conn k) = s := by
  simp [setConn]

theorem step_deliver {s : Net} {k : Nat} {env : Env} {data : List UInt8} {msg : Incoming}
    (read : readIncoming data = some msg) : s.step (.deliver k env data) =
      s.handled k msg (handle env data (s.conn k) s.vat).2 := by
  rw [step, read]

/-- A message that is read is handled by one of the cases. -/
theorem handling_deliver {s : Net} (sound : s.Sound) {k : Nat} (env : Env) {data : List UInt8}
    {msg : Incoming} (read : readIncoming data = some msg) :
    Handling msg (s.conn k) s.vat (handle env data (s.conn k) s.vat).2.conn
      (handle env data (s.conn k) s.vat).2.vat (handle env data (s.conn k) s.vat).2.sent := by
  have handles : Handles msg (World.start (s.conn k) s.vat) _ :=
    handleIncoming_handles env data (sound k)
  obtain ⟨frames, sent, handling⟩ := handles
  rw [show (World.start (s.conn k) s.vat).sent = [] from rfl, List.nil_append] at sent
  rw [handle, read]
  dsimp only
  rw [sent]
  exact handling

theorem does {s : Net} (sound : s.Sound) (a : Action) : s.Does a (s.step a) := by
  cases a with
  | deliver k env data =>
      cases read : readIncoming data with
      | none =>
          rw [step, read]
          exact .unread read
      | some msg =>
          rw [step_deliver read]
          exact .handled read rfl (handling_deliver sound env read)
  | exportCap k server dispatch =>
      cases exported : (s.conn k).exportCap server dispatch with
      | mk found c =>
          rw [step, exported]
          cases found with
          | none =>
              rw [Conn.exportCap_none exported]
              dsimp only
              rw [setConn_same]
              exact .full
          | some eid => exact .exported exported
  | setBootstrap k server dispatch => exact .worked nofun rfl rfl rfl
  | ask k questions introductions nextQuestionId => exact .worked nofun rfl rfl rfl

/-- Sound ids stay sound when one connection and the vat change together. -/
theorem Sound.update {s s' : Net} (sound : s.Sound) {k : Nat} {c : Conn}
    (conn : s'.conn = Function.update s.conn k c) (kept : Rpc.Sound c s'.vat) : s'.Sound := by
  intro k'
  rw [conn]
  by_cases same : k' = k
  · rw [same, Function.update_self]
    exact kept
  · rw [Function.update_of_ne same]
    exact (sound k').congr rfl kept.held

theorem Does.sound {s s' : Net} {a : Action} (does : s.Does a s') (sound : s.Sound) :
    s'.Sound := by
  cases does with
  | unread _ => exact sound
  | handled _ _ handling => exact sound.update rfl (handling.sound (sound _))
  | @exported k _ _ _ _ exported =>
      obtain ⟨-, -, -, -, joins⟩ := Conn.exportCap_some exported
      exact sound.update rfl ((sound k).congr joins (sound k).held)
  | full => exact sound
  | @worked _ k _ _ _ _ joins => exact sound.update rfl ((sound k).congr joins (sound k).held)

theorem sound_init : init.Sound := fun _ => Rpc.sound_init

/-- Stored ids are sound in every run. -/
theorem sound_of_reached {meets : Net → Action → Prop} {s : Net}
    (reached : Reached init step meets s) : s.Sound :=
  reached.invariant sound_init fun _ a sound _ => (does sound a).sound sound

end Net

end CapnpJanet.Rpc
