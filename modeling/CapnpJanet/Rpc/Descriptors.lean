import CapnpJanet.Builder.Links
import CapnpJanet.Rpc.Learning
import CapnpJanet.Rpc.Requests

/-!
# Descriptors of third-party capabilities

`capnp_rpc_write_third_party_cap` writes a chain of structs behind an entry of a
cap table, each with one data word and one pointer, and a text at its end.  The
reader of `note_introductions` follows that chain.  Wherever the builder places
the structs, the reader finds what was written.
-/

namespace CapnpJanet.Rpc

open ByteMemory Builder Outcome

/-- `TPCD_VINEID_OFF` -/
def tpcdVineIdOff : Nat := 0

/-- `TPCID_NONCE_OFF` -/
def tpcidNonceOff : Nat := 0

/-- `capnp_rpc_write_third_party_cap`, where the host may be `NULL`. -/
def writeThirdPartyCap (cd : BPtr) (host : Option (List UInt8)) (port nonce vineId : Nat) :
    BuildM Unit :=
  match host with
  | none => fun b => .error .arg b
  | some host => BuildM.orAlloc do
      setU16 cd capDescTagOff capDescTagThirdPartyHosted
      let at' ← slot cd 1 0
      let tpcd ← struct at' 1 1
      setU32 tpcd tpcdVineIdOff vineId
      let at' ← slot tpcd 1 0
      let id ← struct at' 1 1
      setU64 id tpcidNonceOff nonce
      let at' ← slot id 1 0
      let vat ← struct at' 1 1
      setText vat 1 0 host
      setU16 vat vatIdPortOff port

/-- What a descriptor says. -/
structure ThirdPartyCap where
  host : List UInt8
  port : Nat
  nonce : Nat
  vineId : Nat
deriving DecidableEq, Repr

/-- The arguments are of their types, and the host fits a table entry. -/
structure ThirdPartyCap.Fits (cap : ThirdPartyCap) : Prop where
  host : cap.host.length < maxHost
  port : cap.port < 2 ^ 16
  nonce : cap.nonce < 2 ^ 64
  vineId : cap.vineId < 2 ^ 32

/-- The entry that a reader makes of a descriptor. -/
def ThirdPartyCap.introduction (cap : ThirdPartyCap) : Introduction :=
  ⟨true, cap.nonce, cap.vineId, cap.port, cap.host⟩

/-! ## Structs with one data word and one pointer -/

/-- The words of a struct with one data word and one pointer, and all words that
were not in use. -/
def ownWords (b : Builder) (p : BPtr) : Nat → Nat → Prop := fun s w =>
  ¬b.Used s w ∨ s = p.seg ∧ (w = p.word ∨ w = p.word + 1)

/-- A struct with one data word and one pointer: a field has a value, and the
pointer leads to an object, through words `own`. -/
structure Linked (b : Builder) (own : Nat → Nat → Prop) (p : BPtr) (width offset value : Nat)
    (make : Int → Nat) (child : BPtr) : Prop where
  inside : p.word + 2 ≤ (b.seg p.seg).words
  held : own p.seg p.word ∧ own p.seg (p.word + 1)
  field : loadLe width (b.seg p.seg).data (p.word * 8 + offset) = value
  leads : b.Leads make child.seg child.word own p.seg (p.word + 1)

variable {b b' : Builder} {own own' : Nat → Nat → Prop} {p child : BPtr}
  {width offset value : Nat} {make : Int → Nat}

theorem Linked.spared (linked : Linked b own p width offset value make child)
    (spares : Spares own b b') (within : offset + width ≤ 8) :
    Linked b' own p width offset value make child where
  inside := linked.inside.trans (spares.words_le p.seg)
  held := linked.held
  field := by
    have inUse : b.Used p.seg p.word := by
      have inside := linked.inside
      unfold Used
      omega
    exact (spares.loadLe_eq linked.held.1 inUse within).trans linked.field
  leads := linked.leads.spared spares linked.held.2 linked.inside

theorem Linked.mono (linked : Linked b own p width offset value make child)
    (within : ∀ s w, own s w → own' s w) : Linked b own' p width offset value make child where
  inside := linked.inside
  held := ⟨within _ _ linked.held.1, within _ _ linked.held.2⟩
  field := linked.field
  leads := linked.leads.mono fun s w held _ => within s w held

/-- The pointer word of a struct pointer with one data word and one pointer. -/
def linkPtr (off : Int) : Nat := wpMakeStruct off 1 1

theorem setScalar_ok {body : BPtr} {byteOffset v : Nat}
    (run : setScalar width body byteOffset v b = .ok () b') :
    body.word * 8 + byteOffset + width ≤ (b.seg body.seg).words * 8 ∧
      b' = b.setData body.seg (storeLe width (b.seg body.seg).data (body.word * 8 + byteOffset) v) := by
  unfold setScalar at run
  dsimp only at run
  split at run
  · cases run
  · next inside =>
    cases run
    exact ⟨((bodyOk_iff _ _).mp (not_not.mp inside)).2, rfl⟩

/-- The bytes of a field that is set. -/
theorem setScalar_field {body : BPtr} {byteOffset v : Nat}
    (run : setScalar width body byteOffset v b = .ok () b') :
    loadLe width (b'.seg body.seg).data (body.word * 8 + byteOffset) = v % 256 ^ width := by
  obtain ⟨-, rfl⟩ := setScalar_ok run
  simp only [setData, setSeg_seg, if_true]
  exact loadLe_storeLe _ _ _ _

/-- The ends of writing one struct of the chain: the next one has been placed,
and whatever is then done to that one leaves this one as it is. -/
structure Chained (b : Builder) (p : BPtr) (width offset value : Nat) (child : BPtr)
    (b' : Builder) : Prop where
  wf : b'.Wf
  writes : Writes (bodyBytes p 2) b b'
  fresh : ∀ i, ¬b.Used child.seg (child.word + i)
  linked : ∀ b'', Writes (bodyBytes child 2) b' b'' →
    Writes (bodyBytes p 2) b b'' ∧ (b''.InLimit →
      Linked b'' (ownWords b p) p width offset (value % 256 ^ width) linkPtr child)

/-- Setting a field and placing the next struct. -/
theorem chained_of_run {α : Type} {rest : BPtr → BuildM α} {a : α} (wf : b.Wf)
    (within : offset + width ≤ 8)
    (run : (do
      setScalar width p offset value
      let at' ← slot p 1 0
      let child ← struct at' 1 1
      rest child) b = .ok a b') :
    ∃ child b₂, Chained b p width offset value child b₂ ∧ rest child b₂ = .ok a b' := by
  obtain ⟨_, b₀, scalar, atSlot⟩ := bind_eq_ok.mp run
  obtain ⟨at', b₁, slotRun, atStruct⟩ := bind_eq_ok.mp atSlot
  obtain ⟨child, b₂, structRun, atRest⟩ := bind_eq_ok.mp atStruct
  have set : Writes (fieldBytes p offset width) b b₀ :=
    (setScalar_confined wf width p offset value).of_ok scalar
  obtain ⟨rfl, rfl, inUse⟩ := (slot_ends (b := b₀) p 1 0).of_ok slotRun
  dsimp only at inUse
  rw [Nat.add_zero] at inUse
  have placed : Writes (slotBytes p.seg (p.word + 1)) b₁ b₂ :=
    ((struct_ends set.wf inUse 1 1).of_ok structRun).1
  have field := setScalar_field scalar
  have sameSize : ∀ s, (b₁.seg s).words = (b.seg s).words := by
    obtain ⟨-, rfl⟩ := setScalar_ok scalar
    intro s
    by_cases here : s = p.seg <;> simp [setData, here]
  have first : Writes (bodyBytes p 2) b b₁ := set.mono fun s i _ touches => by
    obtain ⟨rfl, low, high⟩ := touches
    exact ⟨rfl, by omega, by omega⟩
  have whole : Writes (bodyBytes p 2) b b₂ := first.trans placed fun s i _ touches => by
    obtain ⟨rfl, word⟩ := touches
    exact ⟨rfl, by omega, by omega⟩
  obtain ⟨object, -⟩ := struct_placed set.wf inUse (by decide) structRun
  refine ⟨child, b₂, ⟨placed.wf, whole, fun i old => ?_, fun b₃ later => ?_⟩, atRest⟩
  · refine object.fresh i ?_
    unfold Used at old ⊢
    rwa [sameSize]
  have childFresh (i : Nat) : ¬b₁.Used child.seg (child.word + i) := object.fresh i
  have notChild {s i : Nat} (old : i < (b₁.seg s).words * 8) : ¬bodyBytes child 2 s i := by
    rintro ⟨rfl, low, -⟩
    have fresh := childFresh 0
    unfold Used at fresh
    omega
  have spares : Spares (fun s w => b₁.Used s w ∨ ¬b₁.Used s w ∧
      ¬(s = child.seg ∧ child.word ≤ w ∧ w < child.word + 2)) b₂ b₃ := by
    refine later.spares fun s i held touches => ?_
    rcases held with old | ⟨-, apart⟩
    · unfold Used at old
      exact notChild (by omega) touches
    · obtain ⟨rfl, low, high⟩ := touches
      exact apart ⟨rfl, by omega, by omega⟩
  have dataUsed : b₁.Used p.seg p.word := Nat.lt_of_succ_lt inUse
  refine ⟨whole.trans later fun s i old touches => absurd touches (notChild ?_), fun limit => ?_⟩
  · rw [sameSize]
    exact old
  · have limit₂ : b₂.InLimit := fun s => (later.words_le s).trans (limit s)
    refine ⟨?_, ⟨.inr ⟨rfl, .inl rfl⟩, .inr ⟨rfl, .inr rfl⟩⟩, ?_, ?_⟩
    · have grown := (placed.words_le p.seg).trans (later.words_le p.seg)
      unfold Used at inUse
      omega
    · rw [spares.loadLe_eq (.inl dataUsed) (placed.used dataUsed) within, ← field]
      refine loadLe_congr fun k hk => placed.kept _ _ ?_ ?_
      · unfold Used at dataUsed
        omega
      · rintro ⟨-, word⟩
        omega
    · have leads := (object.leads limit₂).congr (spares.wordAt_eq (.inl inUse) (placed.used inUse))
        spares.words_le fun s w held used => spares.wordAt_eq (.inr held) used
      refine leads.mono fun s w held _ => .inl fun old => held.1 ?_
      unfold Used at old ⊢
      rwa [sameSize]

/-! ## The whole chain -/

/-- The pointer word of a text. -/
def textPtr (text : List UInt8) (off : Int) : Nat := wpMakeList off .byte (text.length + 1)

/-- The structs of a descriptor, from the entry of the cap table to the text of
the host. -/
structure DescriptorAt (b : Builder) (own : Nat → Nat → Prop) (cap : ThirdPartyCap)
    (cd tpcd id vat host : BPtr) : Prop where
  tag : Linked b own cd 2 capDescTagOff capDescTagThirdPartyHosted linkPtr tpcd
  vineId : Linked b own tpcd 4 tpcdVineIdOff cap.vineId linkPtr id
  nonce : Linked b own id 8 tpcidNonceOff cap.nonce linkPtr vat
  port : Linked b own vat 2 vatIdPortOff cap.port (textPtr cap.host) host
  inside : host.word + wordsFor (cap.host.length + 1) ≤ (b.seg host.seg).words
  held : ∀ i < wordsFor (cap.host.length + 1), own host.seg (host.word + i)
  text : ∀ i < wordsFor (cap.host.length + 1) * 8,
    (b.seg host.seg).data (host.word * 8 + i) = ofList cap.host i

/-- The entry at `cd` describes a third-party capability. -/
def Describes (b : Builder) (own : Nat → Nat → Prop) (cap : ThirdPartyCap) (cd : BPtr) : Prop :=
  ∃ tpcd id vat host, DescriptorAt b own cap cd tpcd id vat host

theorem Describes.spared {cap : ThirdPartyCap} {cd : BPtr} (described : Describes b own cap cd)
    (spares : Spares own b b') : Describes b' own cap cd := by
  obtain ⟨tpcd, id, vat, host, at'⟩ := described
  refine ⟨tpcd, id, vat, host, at'.tag.spared spares (by decide),
    at'.vineId.spared spares (by decide), at'.nonce.spared spares (by decide),
    at'.port.spared spares (by decide), at'.inside.trans (spares.words_le _), at'.held,
    fun i hi => ?_⟩
  have inside := at'.inside
  have inUse : b.Used host.seg (host.word + i / 8) := by
    unfold Used
    omega
  have same := spares.same host.seg _ (at'.held (i / 8) (by omega)) inUse (i % 8)
    (Nat.mod_lt i (by decide))
  rw [show 8 * (host.word + i / 8) + i % 8 = host.word * 8 + i by omega] at same
  rw [same, at'.text i hi]

theorem Describes.mono {cap : ThirdPartyCap} {cd : BPtr} (described : Describes b own cap cd)
    (within : ∀ s w, own s w → own' s w) : Describes b own' cap cd := by
  obtain ⟨tpcd, id, vat, host, at'⟩ := described
  exact ⟨tpcd, id, vat, host, at'.tag.mono within, at'.vineId.mono within, at'.nonce.mono within,
    at'.port.mono within, at'.inside, fun i hi => within _ _ (at'.held i hi), at'.text⟩

/-- Words owned further down the chain are owned at its start. -/
theorem ownWords_of_writes {touched : Nat → Nat → Prop} (writes : Writes touched b b')
    (fresh : ∀ i, ¬b.Used child.seg (child.word + i)) {s w : Nat} (held : ownWords b' child s w) :
    ownWords b p s w := by
  rcases held with unused | ⟨rfl, rfl | rfl⟩
  · exact .inl fun old => unused (writes.used old)
  · exact .inl (fresh 0)
  · exact .inl (fresh 1)

/-- The end of the chain: the text and the port. -/
theorem vat_of_run {vat : BPtr} {text : List UInt8} {port : Nat} (wf : b.Wf)
    (run : (do
      setText vat 1 0 text
      setU16 vat vatIdPortOff port) b = .ok () b') :
    Writes (bodyBytes vat 2) b b' ∧ ∃ host : BPtr,
      (b'.InLimit →
        Linked b' (ownWords b vat) vat 2 vatIdPortOff (port % 256 ^ 2) (textPtr text) host) ∧
      host.word + wordsFor (text.length + 1) ≤ (b'.seg host.seg).words ∧
      (∀ i, ¬b.Used host.seg (host.word + i)) ∧
      ∀ i < wordsFor (text.length + 1) * 8,
        (b'.seg host.seg).data (host.word * 8 + i) = ofList text i := by
  obtain ⟨_, b₁, textRun, portRun⟩ := bind_eq_ok.mp run
  have texted : Writes (slotBytes vat.seg (vat.word + 1)) b b₁ :=
    (setText_confined wf vat 1 0 text).of_ok textRun
  have set : Writes (fieldBytes vat vatIdPortOff 2) b₁ b' :=
    (setScalar_confined texted.wf 2 vat vatIdPortOff port).of_ok portRun
  have first : Writes (bodyBytes vat 2) b b₁ := texted.mono fun s i _ touches => by
    obtain ⟨rfl, word⟩ := touches
    exact ⟨rfl, by omega, by omega⟩
  refine ⟨first.trans set fun s i _ touches => ?_, ?_⟩
  · obtain ⟨rfl, low, high⟩ := touches
    unfold vatIdPortOff at low high
    exact ⟨rfl, by omega, by omega⟩
  · obtain ⟨host, inUse, placed, bytes⟩ := setText_placed wf textRun
    rw [Nat.add_zero] at inUse placed
    have fresh := placed.fresh
    have apart {s i : Nat} (touches : fieldBytes vat vatIdPortOff 2 s i) :
        s = vat.seg ∧ i / 8 = vat.word := by
      obtain ⟨rfl, low, high⟩ := touches
      unfold vatIdPortOff at low high
      exact ⟨rfl, by omega⟩
    have spares : Spares (fun s w => ¬b.Used s w ∨ s = vat.seg ∧ w = vat.word + 1) b₁ b' := by
      refine set.spares fun s i held touches => ?_
      obtain ⟨rfl, word⟩ := apart touches
      rcases held with unused | ⟨-, slotWord⟩
      · exact unused (by rw [word]; exact Nat.lt_of_succ_lt inUse)
      · omega
    refine ⟨host, fun limit => ⟨?_, ⟨.inr ⟨rfl, .inl rfl⟩, .inr ⟨rfl, .inr rfl⟩⟩,
      setScalar_field portRun, ?_⟩, placed.inside.trans (spares.words_le _), fresh, fun i hi => ?_⟩
    · have grown := (texted.words_le vat.seg).trans (set.words_le vat.seg)
      unfold Used at inUse
      omega
    · have leads := placed.leads fun s => (set.words_le s).trans (limit s)
      refine (leads.congr (spares.wordAt_eq (.inr ⟨rfl, rfl⟩) (texted.used inUse)) spares.words_le
        fun s w held used => spares.wordAt_eq (.inl held.1) used).mono fun s w held _ => .inl held.1
    · have inside := placed.inside
      have same := spares.same host.seg (host.word + i / 8) (.inl (fresh _))
        (by unfold Used; omega) (i % 8) (Nat.mod_lt i (by decide))
      rw [show 8 * (host.word + i / 8) + i % 8 = host.word * 8 + i by omega] at same
      rw [same, bytes i hi]

/-- A descriptor that is written describes what it was told, through words
that were not in use. -/
theorem writeThirdPartyCap_describes {cap : ThirdPartyCap} (fits : cap.Fits) {cd : BPtr}
    (wf : b.Wf)
    (run : writeThirdPartyCap cd (some cap.host) cap.port cap.nonce cap.vineId b = .ok () b') :
    Writes (bodyBytes cd 2) b b' ∧ (b'.InLimit → Describes b' (ownWords b cd) cap cd) := by
  unfold writeThirdPartyCap BuildM.orAlloc at run
  dsimp only at run
  split at run
  · next built =>
    cases run
    obtain ⟨tpcd, b₁, first, built⟩ := chained_of_run wf (by decide) built
    obtain ⟨id, b₂, second, built⟩ := chained_of_run first.wf (by decide) built
    obtain ⟨vat, b₃, third, built⟩ := chained_of_run second.wf (by decide) built
    obtain ⟨last, host, port, inside, fresh, text⟩ := vat_of_run third.wf built
    obtain ⟨late, nonce⟩ := third.linked b' last
    obtain ⟨later, vineId⟩ := second.linked b' late
    obtain ⟨latest, tag⟩ := first.linked b' later
    have own₁ {s w : Nat} : ownWords b₁ tpcd s w → ownWords b cd s w :=
      ownWords_of_writes first.writes first.fresh
    have own₂ {s w : Nat} : ownWords b₂ id s w → ownWords b₁ tpcd s w :=
      ownWords_of_writes second.writes second.fresh
    have own₃ {s w : Nat} : ownWords b₃ vat s w → ownWords b₂ id s w :=
      ownWords_of_writes third.writes third.fresh
    rw [Nat.mod_eq_of_lt (fits.nonce.trans_eq (by norm_num))] at nonce
    rw [Nat.mod_eq_of_lt (fits.vineId.trans_eq (by norm_num))] at vineId
    rw [Nat.mod_eq_of_lt (fits.port.trans_eq (by norm_num))] at port
    rw [Nat.mod_eq_of_lt (by decide)] at tag
    exact ⟨latest, fun limit => ⟨tpcd, id, vat, host, tag limit,
      (vineId limit).mono fun _ _ held => own₁ held,
      (nonce limit).mono fun _ _ held => own₁ (own₂ held),
      (port limit).mono fun _ _ held => own₁ (own₂ (own₃ held)), inside,
      fun i _ => own₁ (own₂ (own₃ (.inl (fresh i)))), text⟩⟩
  · cases run

/-! ## A cap table of descriptors -/

/-- Write descriptors into consecutive entries of a cap table. -/
def writeThirdPartyCaps (cd : BPtr) : List ThirdPartyCap → BuildM Unit
  | [] => pure ()
  | cap :: rest => do
      writeThirdPartyCap cd (some cap.host) cap.port cap.nonce cap.vineId
      writeThirdPartyCaps ⟨cd.seg, cd.word + 2⟩ rest

/-- Each descriptor of a table describes what it was told. -/
theorem writeThirdPartyCaps_describes {caps : List ThirdPartyCap}
    (fits : ∀ cap ∈ caps, cap.Fits) {cd : BPtr} (wf : b.Wf)
    (inside : cd.word + 2 * caps.length ≤ (b.seg cd.seg).words)
    (run : writeThirdPartyCaps cd caps b = .ok () b') :
    Writes (bodyBytes cd (2 * caps.length)) b b' ∧ (b'.InLimit → ∀ i cap, caps[i]? = some cap →
      Describes b' (fun _ _ => True) cap ⟨cd.seg, cd.word + 2 * i⟩) := by
  induction caps generalizing b cd with
  | nil =>
      cases run
      exact ⟨Writes.refl wf, fun _ i cap there => by simp at there⟩
  | cons cap rest ih =>
      obtain ⟨_, b₁, first, others⟩ := bind_eq_ok.mp run
      rw [List.length_cons] at inside ⊢
      obtain ⟨head, described⟩ := writeThirdPartyCap_describes (fits cap (by simp)) wf first
      have room : cd.word + 2 + 2 * rest.length ≤ (b₁.seg cd.seg).words := by
        have grown := head.words_le cd.seg
        omega
      obtain ⟨tail, entries⟩ := @ih b₁ (fun other member => fits other (by simp [member]))
        ⟨cd.seg, cd.word + 2⟩ head.wf room others
      have whole : Writes (bodyBytes cd (2 * (rest.length + 1))) b b₁ :=
        head.mono fun s i _ touches => by
          obtain ⟨rfl, low, high⟩ := touches
          exact ⟨rfl, low, by omega⟩
      refine ⟨whole.trans tail fun s i _ touches => ?_, fun limit i other there => ?_⟩
      · obtain ⟨rfl, low, high⟩ := touches
        dsimp only at low high
        exact ⟨rfl, by omega, by omega⟩
      · cases i with
        | zero =>
            obtain rfl : cap = other := by simpa using there
            -- the other entries are words in use that are not the first entry's
            have spares : Spares (ownWords b cd) b₁ b' := by
              refine tail.spares fun s i held touches => ?_
              obtain ⟨rfl, low, high⟩ := touches
              dsimp only at low high
              rcases held with unused | ⟨-, own⟩
              · apply unused
                unfold Used
                dsimp only
                omega
              · omega
            have limit₁ : b₁.InLimit := fun s => (tail.words_le s).trans (limit s)
            exact ((described limit₁).spared spares).mono fun _ _ _ => trivial
        | succ i =>
            have entry := entries limit i other (by simpa using there)
            rwa [show cd.word + 2 * (i + 1) = cd.word + 2 + 2 * i by omega]

/-! ## Reading a descriptor -/

/-- A message with the segments of a builder, as the parser leaves it. -/
structure ReadFrom (m : Message) (b : Builder) : Prop where
  built : m.BuiltFrom b
  wf : b.Wf
  few : m.nsegs < 2 ^ 32
  depth : m.depthLimit = defaultDepthLimit

section
variable {m : Message}

/-- A pointer of a struct handle that leads to an object is read. -/
theorem ReadFrom.getp_eq (from' : ReadFrom m b) {seg body dwords pwords k price : Nat} {make : Int → Nat}
    {object : Ptr} (hk : k < pwords) (inUse : b.Used seg (body + dwords + k))
    (leads : b.Leads make child.seg child.word own seg (body + dwords + k))
    (segLt : child.seg < m.nsegs) (names : m.Names make child.seg child.word object price) :
    ∃ cost ≤ price + 3, ∀ out left, cost ≤ left →
      m.getp (Message.structAt seg body dwords pwords) k out left = ⟨.ok, object, left - cost⟩ := by
  obtain ⟨cost, cheap, resolves⟩ :=
    names.slotTarget leads from'.built from'.wf from'.few segLt inUse 62
  have inside := from'.built.inSegment from'.wf inUse
  have below := Message.lt_of_words_le inside.2
  refine ⟨cost, cheap, fun out left covered => ?_⟩
  rw [Message.getp_structAt hk (by omega), from'.depth]
  exact Message.resolvePtr_eq resolves covered

theorem ReadFrom.segLt (from' : ReadFrom m b) {s w n : Nat} (some : n ≠ 0)
    (inside : w + n ≤ (b.seg s).words) : s < m.nsegs :=
  (from'.built.inSegment from'.wf (show b.Used s w by unfold Used; omega)).1

theorem ReadFrom.words_eq (from' : ReadFrom m b) {s : Nat} (segLt : s < m.nsegs) :
    (m.seg s).words = (b.seg s).words := (from'.built.words s segLt).symm

/-- The next struct of a chain is read. -/
theorem Linked.getp_eq (linked : Linked b own p width offset value linkPtr child)
    (from' : ReadFrom m b) (next : child.word + 2 ≤ (b.seg child.seg).words) :
    ∃ cost ≤ 5, ∀ out left, cost ≤ left →
      m.getp (Message.structAt p.seg p.word 1 1) 0 out left =
        ⟨.ok, Message.structAt child.seg child.word 1 1, left - cost⟩ := by
  have segLt := from'.segLt (by decide) next
  have inside : child.word + (1 + 1) ≤ (m.seg child.seg).words := by
    rw [from'.words_eq segLt]
    exact next
  have names := Message.names_struct segLt from'.few inside (by decide) (by decide) (by decide)
  exact from'.getp_eq (by decide) linked.inside linked.leads segLt names

/-- A field of a chain is read. -/
theorem Linked.getScalar_eq {make : Int → Nat}
    (linked : Linked b own p width offset value make child) (from' : ReadFrom m b)
    (within : offset + width ≤ 8) (dflt : Nat) :
    m.getScalar width (Message.structAt p.seg p.word 1 1) offset dflt = value := by
  have inside := linked.inside
  have segLt := from'.segLt (by decide) inside
  rw [Message.getScalar_structAt (by omega), from'.built.loadLe_eq _ (by omega), linked.field]
  rw [from'.built.nsegs]
  exact segLt

/-- The text at the end of a chain is read. -/
theorem getText_eq {text : List UInt8} {host : BPtr} (from' : ReadFrom m b)
    (linked : Linked b own p width offset value (textPtr text) host) (short : text.length < maxHost)
    (inside : host.word + wordsFor (text.length + 1) ≤ (b.seg host.seg).words)
    (bytes : ∀ i < wordsFor (text.length + 1) * 8,
      (b.seg host.seg).data (host.word * 8 + i) = ofList text i) :
    ∃ cost ≤ 12, ∀ left, cost ≤ left →
      m.getText (Message.structAt p.seg p.word 1 1) 0 left = (.ok, text, left - cost) := by
  unfold maxHost at short
  have words : listBodyWords .byte (text.length + 1) = wordsFor (text.length + 1) := by
    unfold listBodyWords wordsFor
    rw [ElemSize.bits]
    omega
  have few : wordsFor (text.length + 1) ≤ 8 := by
    unfold wordsFor
    omega
  have covers : text.length + 1 ≤ wordsFor (text.length + 1) * 8 := by
    unfold wordsFor
    omega
  have segLt := from'.segLt (n := wordsFor (text.length + 1)) (by omega) inside
  have size := from'.words_eq segLt
  have bounds : host.word + listBodyWords .byte (text.length + 1) ≤ (m.seg host.seg).words := by
    rw [words, size]
    exact inside
  have names := Message.names_list segLt from'.few (by decide) (by omega) bounds
  obtain ⟨cost, cheap, reads⟩ := from'.getp_eq (show 0 < 1 by decide) linked.inside linked.leads
    segLt names
  refine ⟨cost, by omega, fun left covered => ?_⟩
  have byte (i : Nat) (hi : i < text.length + 1) :
      m.listByte { Ptr.zero with
        seg := host.seg, word := host.word, kind := .list, esize := .byte, count := text.length + 1 } i =
          ofList text i := by
    have below := Message.lt_of_words_le (m := m) (show host.word + wordsFor (text.length + 1) ≤
      (m.seg host.seg).words by rw [size]; exact inside)
    have place : sizeT (((host.word : Nat) : Int) * 8 + (i : Nat)) = host.word * 8 + i :=
      sizeT_of_lt (n := host.word * 8 + i) (by omega)
    unfold Message.listByte
    dsimp only
    rw [place, ← from'.built.bytes host.seg segLt _ (by rw [size]; omega), bytes i (by omega)]
  unfold Message.getText
  rw [reads _ _ covered]
  dsimp only
  rw [if_neg (by simp), if_neg (by simp), if_neg (by simp), if_neg (by simp)]
  congr 2
  unfold Message.textOf
  rw [if_pos]
  · unfold Message.listBytes
    refine List.ext_getElem (by simp) fun i hi hi' => ?_
    rw [List.getElem_map, List.getElem_range, byte i (by omega)]
    simp [ofList, hi']
  · refine ⟨by simp, ?_⟩
    dsimp only
    rw [Nat.add_sub_cancel, byte _ (by omega)]
    simp [ofList]

/-- A descriptor is read as it was written. -/
theorem Describes.readIntroduction_eq {cap : ThirdPartyCap} {cd : BPtr} (fits : cap.Fits)
    (described : Describes b own cap cd) (from' : ReadFrom m b) {table : Ptr} {i : Nat}
    (elem : Message.listGetStruct table i Ptr.zero = (.ok, Message.structAt cd.seg cd.word 1 1)) :
    ∃ cost ≤ 27, ∀ left, cost ≤ left →
      readIntroduction m table i left = (some cap.introduction, left - cost) := by
  obtain ⟨tpcd, id, vat, host, at'⟩ := described
  obtain ⟨cost₁, cheap₁, reads₁⟩ := at'.tag.getp_eq from' at'.vineId.inside
  obtain ⟨cost₂, cheap₂, reads₂⟩ := at'.vineId.getp_eq from' at'.nonce.inside
  obtain ⟨cost₃, cheap₃, reads₃⟩ := at'.nonce.getp_eq from' at'.port.inside
  obtain ⟨cost₄, cheap₄, reads₄⟩ := getText_eq from' at'.port fits.host at'.inside at'.text
  refine ⟨cost₁ + cost₂ + cost₃ + cost₄, by omega, fun left covered => ?_⟩
  have short := fits.host
  unfold readIntroduction
  rw [elem]
  dsimp only
  rw [Message.getU16, at'.tag.getScalar_eq from' (by decide), if_neg (by simp),
    reads₁ _ _ (by omega)]
  dsimp only
  rw [if_neg (by simp [Message.structAt]), reads₂ _ _ (by omega)]
  dsimp only
  rw [if_neg (by simp [Message.structAt]), reads₃ _ _ (by omega)]
  dsimp only
  rw [if_neg (by simp [Message.structAt]), reads₄ _ (by omega)]
  dsimp only
  rw [if_neg (by simp; omega)]
  have nonce := at'.nonce.getScalar_eq from' (by decide) 0
  have vineId := at'.vineId.getScalar_eq from' (by decide) 0
  have port := at'.port.getScalar_eq from' (by decide) 0
  rw [tpcidNonceOff] at nonce
  rw [tpcdVineIdOff] at vineId
  rw [vatIdPortOff] at port
  rw [Message.getU64, Message.getU32, Message.getU16, nonce, vineId, port]
  refine Prod.ext rfl ?_
  dsimp only
  omega

/-! ### A table of descriptors -/

/-- The entries of a table of descriptors whose tag is at `tag`. -/
structure TableOf (b : Builder) (caps : List ThirdPartyCap) (tag : BPtr) : Prop where
  few : caps.length < 2 ^ 28
  inside : tag.word + 1 + 2 * caps.length ≤ (b.seg tag.seg).words
  elems : b.wordAt tag.seg tag.word = wpMakeStruct caps.length 1 1
  entries : ∀ i cap, caps[i]? = some cap →
    Describes b (fun _ _ => True) cap ⟨tag.seg, tag.word + 1 + 2 * i⟩

variable {caps : List ThirdPartyCap} {tag : BPtr}

theorem tagCount_table {n : Nat} (few : n < 2 ^ 28) : tagCount (wpMakeStruct (n : Int) 1 1) = n := by
  unfold tagCount
  rw [wpOffset_makeStruct _ _ (by unfold OffsetFits; omega)]
  omega

/-- The handle of such a table. -/
def tablePtr (caps : List ThirdPartyCap) (tag : BPtr) : Ptr :=
  compositePtr tag.seg tag.word (wpMakeStruct caps.length 1 1)

theorem TableOf.names (table : TableOf b caps tag) (from' : ReadFrom m b) {words : Nat} :
    m.Names (fun off => wpMakeList off .composite words) tag.seg tag.word (tablePtr caps tag)
      (2 * caps.length + 1) := by
  have inside := table.inside
  have inUse : b.Used tag.seg tag.word := by
    unfold Used
    omega
  have segLt := (from'.built.inSegment from'.wf inUse).1
  have dwords : wpStructDwords (wpMakeStruct (caps.length : Int) 1 1) = 1 := by
    rw [wpStructDwords_makeStruct]
    rfl
  have pwords : wpStructPwords (wpMakeStruct (caps.length : Int) 1 1) = 1 := by
    rw [wpStructPwords_makeStruct]
    rfl
  have names := @Message.names_composite m _ _ _ words segLt from'.few
    ((from'.built.readWord_eq from'.wf inUse).trans table.elems) (by
      rw [tagCount_table table.few, dwords, pwords, from'.words_eq segLt]
      omega)
  rw [tagCount_table table.few, dwords, pwords] at names
  rwa [show 2 * caps.length + 1 = caps.length * (1 + 1) + 1 by omega]

theorem TableOf.elem (table : TableOf b caps tag) (from' : ReadFrom m b) {i : Nat}
    (hi : i < caps.length) : Message.listGetStruct (tablePtr caps tag) i Ptr.zero =
      (.ok, Message.structAt tag.seg (tag.word + 1 + 2 * i) 1 1) := by
  have dwords : wpStructDwords (wpMakeStruct (caps.length : Int) 1 1) = 1 := by
    rw [wpStructDwords_makeStruct]
    rfl
  have pwords : wpStructPwords (wpMakeStruct (caps.length : Int) 1 1) = 1 := by
    rw [wpStructPwords_makeStruct]
    rfl
  have inside := table.inside
  have segLt := from'.segLt (show 1 + 2 * caps.length ≠ 0 by omega)
    (show tag.word + (1 + 2 * caps.length) ≤ (b.seg tag.seg).words by omega)
  have below := Message.lt_of_words_le (m := m) (show tag.word + 1 + 2 * caps.length ≤
    (m.seg tag.seg).words by rw [from'.words_eq segLt]; exact inside)
  have place : sizeT (((tag.word + 1 : Nat) : Int) + (i : Int) * ((1 + 1 : Nat) : Int)) =
      tag.word + 1 + 2 * i :=
    (congrArg sizeT (by omega)).trans (sizeT_of_lt (show tag.word + 1 + 2 * i < 2 ^ 64 by omega))
  unfold Message.listGetStruct tablePtr
  rw [if_neg (by simp [compositePtr]), if_neg (by
    simp only [compositePtr, tagCount_table table.few]
    omega)]
  simp only [compositePtr, Message.elemPtr, dwords, pwords, place, Message.structAt]

/-- One more entry of a table. -/
theorem introductionsOf_succ {table : Ptr} {n left left₁ left₂ : Nat} {found : List Introduction}
    {introduction : Option Introduction} (before : introductionsOf m table n left = (found, left₁))
    (entry : readIntroduction m table n left₁ = (introduction, left₂)) :
    introductionsOf m table (n + 1) left = (found ++ introduction.toList, left₂) := by
  rw [introductionsOf, before]
  generalize readIntroduction m table n = read at entry ⊢
  dsimp only
  rw [entry]

/-- The entries of a table are read as they were written. -/
theorem TableOf.introductionsOf_eq (table : TableOf b caps tag) (fits : ∀ cap ∈ caps, cap.Fits)
    (from' : ReadFrom m b) {n : Nat} (hn : n ≤ caps.length) :
    ∃ cost ≤ 27 * n, ∀ left, cost ≤ left → introductionsOf m (tablePtr caps tag) n left =
      ((caps.take n).map ThirdPartyCap.introduction, left - cost) := by
  induction n with
  | zero => exact ⟨0, le_rfl, fun left _ => rfl⟩
  | succ n ih =>
      obtain ⟨before, cheap, reads⟩ := ih (by omega)
      have there : caps[n]? = some caps[n] := List.getElem?_eq_getElem (by omega)
      obtain ⟨cost, small, entry⟩ := (table.entries n _ there).readIntroduction_eq
        (fits _ (List.getElem_mem _)) from' (table.elem from' (by omega))
      refine ⟨before + cost, by omega, fun left covered => ?_⟩
      rw [introductionsOf_succ (reads left (by omega)) (entry _ (by omega)), List.take_add_one,
        there, List.map_append, Nat.sub_sub]
      rfl

end

end CapnpJanet.Rpc
