import CapnpJanet.Builder.Draft

/-!
# Drafts that are drawn in the arena

A builder draws a draft when every object has words of its own that hold its data,
and every slot holds a pointer word for what it should hold, behind landing pads
that belong to no object.  Then a call that writes one slot, or the data of one
row, leaves everything else of the drawing as it is, wherever its words lie.
-/

namespace CapnpJanet

open ByteMemory Builder

namespace Draft

/-! ## Objects and their words -/

namespace Content

/-- The words of an object. -/
def words : Content → Nat
  | .block shape n nd np _ => shape.header + n * (nd + np)
  | .flat list => wordsFor list.size

/-- The pointer word for an object at an offset. -/
def pointer : Content → Int → Nat
  | .block .struct _ nd np _, off => wpMakeStruct off nd np
  | .block .pointers n _ _ _, off => wpMakeList off .ptr n
  | .block .composite n nd np _, off => wpMakeList off .composite (n * (nd + np))
  | .flat list, off => wpMakeList off list.esize list.count

/-- The first word of a row of an object at a word. -/
def rowWord (pos i : Nat) : Content → Nat
  | .block shape _ nd np _ => pos + shape.header + i * (nd + np)
  | .flat _ => pos

/-- Counts and sizes that a pointer word has room for. -/
def Fits : Content → Prop
  | .block shape n nd np _ => shape.Sizes n nd np
  | .flat list => list.count < 2 ^ 29 ∧ list.esize ≠ .ptr ∧ list.esize ≠ .composite ∧
      ∀ esize width n items, list = .scalars esize width n items → esize.bits = 8 * width

/-- The object at a host is filled in.  The bits behind those of a list are zero. -/
def Filled (b : Builder) (host : BPtr) : Content → Prop
  | .block shape n nd np row =>
      (shape = .composite → b.wordAt host.seg host.word = wpMakeStruct n nd np) ∧
        ∀ i < n, ∀ k < nd * 8,
          (b.seg host.seg).data ((host.word + shape.header + i * (nd + np)) * 8 + k) = row i k
  | .flat (.scalars _ width n items) => ∀ i < n,
      loadLe width (b.seg host.seg).data (host.word * 8 + i * width) = items i % 256 ^ width
  | .flat (.bits n items) => ∀ i < 8 * ((n + 7) / 8),
      bitOf ((b.seg host.seg).data (host.word * 8 + i / 8)) (i % 8) = (decide (i < n) && items i)
  | .flat (.bytes given) => ∀ k < given.length,
      (b.seg host.seg).data (host.word * 8 + k) = ofList given k

/-- The bytes of an object that are not those of its pointers. -/
def body (host : BPtr) (s byte : Nat) : Content → Prop
  | .block shape n nd np _ => s = host.seg ∧
      ((shape = .composite ∧ byte / 8 = host.word) ∨ ∃ i < n, ∃ k < nd * 8,
        byte = (host.word + shape.header + i * (nd + np)) * 8 + k)
  | .flat list => s = host.seg ∧ host.word * 8 ≤ byte ∧ byte < host.word * 8 + list.size

end Content

/-- The words of a segment from a host on. -/
def Within (host : BPtr) (n s w : Nat) : Prop :=
  s = host.seg ∧ host.word ≤ w ∧ w < host.word + n

section
variable {b b' : Builder} {host : BPtr} {c : Content}

/-- What is no pointer of an object lies among its words. -/
theorem Content.within_of_body {s byte : Nat} (inside : c.body host s byte) :
    Within host c.words s (byte / 8) := by
  cases c with
  | block shape n nd np row =>
      obtain ⟨rfl, ⟨rfl, tag⟩ | ⟨i, hi, k, hk, rfl⟩⟩ := inside
      · refine ⟨rfl, tag.ge, ?_⟩
        rw [tag, Content.words, Shape.header]
        omega
      · have room := Tree.row_le hi (nd + np)
        refine ⟨rfl, by omega, ?_⟩
        rw [Content.words]
        omega
  | flat list =>
      obtain ⟨rfl, low, high⟩ := inside
      refine ⟨rfl, by omega, ?_⟩
      rw [Content.words, wordsFor]
      omega

/-- An object depends on the bytes of its data. -/
theorem Content.Filled.congr (filled : c.Filled b host)
    (same : ∀ byte, c.body host host.seg byte →
      (b'.seg host.seg).data byte = (b.seg host.seg).data byte) (fits : c.Fits) :
    c.Filled b' host := by
  match c with
  | .block shape n nd np row =>
      obtain ⟨tag, rows⟩ := filled
      refine ⟨fun composite => ?_, fun i hi k hk => ?_⟩
      · rw [← tag composite]
        exact word_congr fun k hk => same _ ⟨rfl, .inl ⟨composite, by omega⟩⟩
      · rw [← rows i hi k hk]
        exact same _ ⟨rfl, .inr ⟨i, hi, k, hk, rfl⟩⟩
  | .flat (.scalars esize width n items) =>
      intro i hi
      rw [← filled i hi]
      refine loadLe_congr fun k hk => same _ ⟨rfl, by omega, ?_⟩
      have room := Tree.row_le hi width
      rw [Flat.size]
      omega
  | .flat (.bits n items) =>
      intro i hi
      rw [← filled i hi, same _ ⟨rfl, by omega, ?_⟩]
      rw [Flat.size]
      omega
  | .flat (.bytes given) =>
      intro k hk
      rw [← filled k hk]
      exact same _ ⟨rfl, by omega, by rw [Flat.size]; omega⟩

end

/-! ## Drawings -/

/-- An object has its words, and they hold its data. -/
structure Kept (b : Builder) (host : BPtr) (c : Content) : Prop where
  fits : c.Fits
  segLt : host.seg < b.nsegs
  inside : host.word + c.words ≤ (b.seg host.seg).words
  filled : c.Filled b host
  behind : ¬Within host c.words 0 0

section
variable (d : Draft) (place : Nat → BPtr)

/-- Where the slots are. -/
inductive Live : Slot (Nat × Nat) → BPtr → Prop
  | root (started : d.started = true) : Live .root ⟨0, 0⟩
  | field {id i k n nd np : Nat} {shape : Shape} {row : Nat → Memory}
      (found : d.drawing.nodes[id]? = some (.block shape n nd np row)) (hi : i < n) (hk : k < np) :
      Live (.field id (i, k)) ⟨(place id).seg, Tree.slotOf shape nd np (place id).word i k⟩

/-- The words of no object. -/
def Spare (s w : Nat) : Prop :=
  ¬(s = 0 ∧ w = 0) ∧
    ∀ id c, d.drawing.nodes[id]? = some c → ¬Within (place id) c.words s w

/-- A slot holds a pointer word for what it should hold.  The pointer word for a
struct without sections could be null, and has an offset of its own. -/
def Shows (b : Builder) (at' : BPtr) : Link Nat → Prop
  | .null => b.wordAt at'.seg at'.word = 0
  | .leaf a => b.wordAt at'.seg at'.word = wpMakeCap a
  | .node id => ∃ c, d.drawing.nodes[id]? = some c ∧
      b.Leads c.pointer (place id).seg (place id).word (Spare d place) at'.seg at'.word ∧
        (c.pointer 0 = 0 → b.wordAt at'.seg at'.word = c.pointer (-1))

/-- The builder draws the draft. -/
structure Drawn (b : Builder) : Prop where
  wf : b.Wf
  blank : d.started = false → d.drawing = .empty
  started : d.started = true → b.Used 0 0
  kept : ∀ id c, d.drawing.nodes[id]? = some c → Kept b (place id) c
  apart : ∀ id id' c c', d.drawing.nodes[id]? = some c → d.drawing.nodes[id']? = some c' →
    id ≠ id' → ∀ s w, Within (place id) c.words s w → ¬Within (place id') c'.words s w
  shows : ∀ s at', Live d place s at' → Shows d place b at' (d.drawing.link s)

end

section
variable {d : Draft} {place : Nat → BPtr} {b b' : Builder} {s s' : Slot (Nat × Nat)}
  {at' other : BPtr} {id : Nat} {c : Content}

theorem Live.within {id i k n nd np : Nat} {shape : Shape} {row : Nat → Memory} (hi : i < n)
    (hk : k < np) : Within (place id) (Content.block shape n nd np row).words (place id).seg
      (Tree.slotOf shape nd np (place id).word i k) := by
  have inside := Tree.slotOf_lt shape nd (place id).word hi hk
  refine ⟨rfl, ?_, ?_⟩
  · rw [Tree.slotOf]
    omega
  · rw [Content.words]
    omega

theorem Live.used (live : Live d place s at') (drawn : Drawn d place b) :
    b.Used at'.seg at'.word := by
  cases live with
  | root started => exact drawn.started started
  | @field id i k n nd np shape row found hi hk =>
      have inside := (drawn.kept id _ found).inside
      have within : Within (place id) (Content.block shape n nd np row).words _ _ := Live.within hi hk
      exact within.2.2.trans_le inside

/-- A slot is no spare word. -/
theorem Live.not_spare (live : Live d place s at') : ¬Spare d place at'.seg at'.word := by
  rintro ⟨notRoot, none⟩
  cases live with
  | root _ => exact notRoot ⟨rfl, rfl⟩
  | field found hi hk => exact none _ _ found (Live.within hi hk)

/-- Rows of one width do not overlap. -/
theorem row_unique {w i j x y : Nat} (hx : x < w) (hy : y < w)
    (same : i * w + x = j * w + y) : i = j ∧ x = y := by
  have rows : i = j := by
    have left := Nat.mul_add_div (Nat.zero_lt_of_lt hx) i x
    have right := Nat.mul_add_div (Nat.zero_lt_of_lt hx) j y
    rw [Nat.div_eq_of_lt hx, Nat.mul_comm] at left
    rw [Nat.div_eq_of_lt hy, Nat.mul_comm, ← same] at right
    omega
  subst rows
  exact ⟨rfl, by omega⟩

/-- Slots are at different words. -/
theorem Live.unique (drawn : Drawn d place b) (live : Live d place s at')
    (live' : Live d place s' at') : s = s' := by
  cases live with
  | root _ =>
      generalize here : (⟨0, 0⟩ : BPtr) = zero at live'
      cases live' with
      | root _ => rfl
      | @field id i k n nd np shape row found hi hk =>
          have behind := (drawn.kept id _ found).behind
          have within : Within (place id) (Content.block shape n nd np row).words _ _ :=
            Live.within hi hk
          obtain ⟨seg, word⟩ := BPtr.mk.inj here
          rw [← seg, ← word] at within
          exact absurd within behind
  | @field id i k n nd np shape row found hi hk =>
      have inside : Within (place id) (Content.block shape n nd np row).words _ _ := Live.within hi hk
      generalize here : (⟨(place id).seg, Tree.slotOf shape nd np (place id).word i k⟩ : BPtr) = at'
        at live'
      cases live' with
      | root _ =>
          obtain ⟨seg, word⟩ := BPtr.mk.inj here
          rw [seg, word] at inside
          exact absurd inside (drawn.kept id _ found).behind
      | @field id' i' k' n' nd' np' shape' row' found' hi' hk' =>
          obtain ⟨seg, word⟩ := BPtr.mk.inj here
          by_cases same : id = id'
          · subst same
            rw [found] at found'
            obtain ⟨rfl, rfl, rfl, rfl, rfl⟩ := Content.block.inj (Option.some.inj found')
            unfold Tree.slotOf at word
            obtain ⟨rfl, offsets⟩ := row_unique (w := nd + np) (x := nd + k) (y := nd + k')
              (by omega) (by omega) (show i * (nd + np) + (nd + k) = i' * (nd + np) + (nd + k') by omega)
            rw [Nat.add_left_cancel offsets]
          · rw [seg, word] at inside
            exact absurd (Live.within hi' hk') (drawn.apart _ _ _ _ found found' same _ _ inside)

/-- A slot holds no data. -/
theorem Live.not_body (drawn : Drawn d place b) (live : Live d place s at')
    (found : d.drawing.nodes[id]? = some c) {byte : Nat} (word : byte / 8 = at'.word) :
    ¬c.body (place id) at'.seg byte := by
  intro data
  have within := Content.within_of_body data
  rw [word] at within
  cases live with
  | root _ => exact (drawn.kept id c found).behind within
  | @field id' i k n nd np shape row found' hi hk =>
      by_cases same : id = id'
      · subst same
        rw [found] at found'
        obtain rfl := Option.some.inj found'
        dsimp only at word
        unfold Tree.slotOf at word
        obtain ⟨-, ⟨rfl, tag⟩ | ⟨j, hj, x, hx, rfl⟩⟩ := data
        · rw [Shape.header] at word
          omega
        · obtain ⟨rfl, offsets⟩ := row_unique (w := nd + np) (x := x / 8) (y := nd + k)
            (by omega) (by omega)
            (show j * (nd + np) + x / 8 = i * (nd + np) + (nd + k) by omega)
          omega
      · exact drawn.apart _ _ _ _ found found' same _ _ within (Live.within hi hk)

/-- A slot is at one word. -/
theorem Live.same (live : Live d place s at') (live' : Live d place s other) : at' = other := by
  cases live with
  | root _ =>
      cases live' with
      | root _ => rfl
  | field found hi hk =>
      cases live' with
      | field found' hi' hk' =>
          rw [found] at found'
          obtain ⟨rfl, rfl, rfl, rfl, rfl⟩ := Content.block.inj (Option.some.inj found')
          rfl

theorem Live.born (live : Live d place s at') : Forest.Born d.drawing.nodes.length s := by
  cases live with
  | root _ => trivial
  | field found _ _ => exact (List.getElem?_eq_some_iff.mp found).1

end

/-! ## What stays -/

section
variable {d d' : Draft} {place place' : Nat → BPtr} {b b' : Builder} {touched : Nat → Nat → Prop}
  {at' host : BPtr} {c : Content} {l : Link Nat}

/-- An object none of whose data is touched is kept. -/
theorem Kept.later (kept : Kept b host c) (writes : Writes touched b b')
    (apart : ∀ byte, c.body host host.seg byte → ¬touched host.seg byte) : Kept b' host c where
  fits := kept.fits
  segLt := kept.segLt.trans_le writes.nsegs_le
  inside := kept.inside.trans (writes.words_le _)
  filled := by
    apply kept.filled.congr _ kept.fits
    intro byte data
    apply writes.kept _ _ _ (apart byte data)
    have within := (Content.within_of_body data).2.2
    have inside := kept.inside
    omega
  behind := kept.behind

/-- A slot shows what it showed if its word, the pointers of the objects and the
landing pads are as they were. -/
theorem Shows.later (shows : Shows d place b at' l)
    (slot : b'.wordAt at'.seg at'.word = b.wordAt at'.seg at'.word)
    (words : ∀ s, (b.seg s).words ≤ (b'.seg s).words)
    (objects : ∀ id c, d.drawing.nodes[id]? = some c → place' id = place id ∧
      ∃ c', d'.drawing.nodes[id]? = some c' ∧ c'.pointer = c.pointer)
    (pads : ∀ s w, Spare d place s w → b.Used s w → Spare d' place' s w ∧
      b'.wordAt s w = b.wordAt s w) : Shows d' place' b' at' l := by
  cases l with
  | null => exact slot.trans shows
  | leaf a => exact slot.trans shows
  | node id =>
      obtain ⟨c, found, leads, hollow⟩ := shows
      obtain ⟨samePlace, c', found', samePointer⟩ := objects id c found
      rw [← samePointer] at leads hollow
      refine ⟨c', found', ?_, fun null => slot.trans (hollow null)⟩
      rw [samePlace]
      have moved := leads.mono fun s w spare used => (show Spare d place s w ∧ Spare d' place' s w from
        ⟨spare, (pads s w spare used).1⟩)
      exact (moved.congr slot words fun s w both used => (pads s w both.1 used).2).mono
        fun _ _ both _ => both.2

end

/-! ## Steps -/

/-- A slot leads to an object that has been given fresh words. -/
structure Hung (b : Builder) (at' host : BPtr) (n : Nat) (make : Int → Nat) (b' : Builder) :
    Prop where
  writes : Writes (slotBytes at'.seg at'.word) b b'
  fresh : ∀ i < n, ¬b.Used host.seg (host.word + i)
  segLt : host.seg < b'.nsegs
  inside : host.word + n ≤ (b'.seg host.seg).words
  leads : b'.Leads make host.seg host.word (fun s w => ¬b.Used s w ∧ ¬Within host n s w)
    at'.seg at'.word
  hollow : make 0 = 0 → b'.wordAt at'.seg at'.word = make (-1)

section
variable {d : Draft} {place : Nat → BPtr} {b b' : Builder} {s : Slot (Nat × Nat)}
  {at' host : BPtr} {c : Content} {l : Link Nat}

/-- Only a draft that has been started has slots. -/
theorem Live.begun (drawn : Drawn d place b) (live : Live d place s at') : d.started = true := by
  cases begun : d.started with
  | true => rfl
  | false =>
      have blank := drawn.blank begun
      cases live with
      | root started => exact begun.symm.trans started
      | field found _ _ =>
          rw [blank] at found
          cases found

/-- Writing a slot touches no spare word. -/
theorem Live.pads (live : Live d place s at') (writes : Writes (slotBytes at'.seg at'.word) b b')
    {seg word : Nat} (spare : Spare d place seg word) (used : b.Used seg word) :
    b'.wordAt seg word = b.wordAt seg word := by
  refine writes.wordAt_eq used fun byte word touches => live.not_spare ?_
  obtain ⟨rfl, same⟩ := touches
  rwa [← same, word]

/-- Writing a slot leaves the other slots alone. -/
theorem Live.others (drawn : Drawn d place b) (live : Live d place s at')
    (writes : Writes (slotBytes at'.seg at'.word) b b') {s' : Slot (Nat × Nat)} {other : BPtr}
    (live' : Live d place s' other) (apart : s' ≠ s) :
    b'.wordAt other.seg other.word = b.wordAt other.seg other.word := by
  refine writes.wordAt_eq (live'.used drawn) fun byte word touches => apart ?_
  obtain ⟨seg, same⟩ := touches
  refine live'.unique drawn ?_
  rwa [show other = at' from congrArg₂ BPtr.mk seg (word.symm.trans same)]

/-- Writing a slot leaves the objects alone. -/
theorem Live.keeps (drawn : Drawn d place b) (live : Live d place s at')
    (writes : Writes (slotBytes at'.seg at'.word) b b') {id : Nat}
    (found : d.drawing.nodes[id]? = some c) : Kept b' (place id) c := by
  refine (drawn.kept id c found).later writes fun byte data touches => ?_
  obtain ⟨seg, word⟩ := touches
  rw [seg] at data
  exact live.not_body drawn found word data

/-- A slot that is written with another word shows that, and all else stays. -/
theorem Drawn.put (drawn : Drawn d place b) (live : Live d place s at')
    (writes : Writes (slotBytes at'.seg at'.word) b b')
    (shows : Shows d place b' at' l) : Drawn (d.put s l) place b' := by
  have nodes : (d.put s l).drawing.nodes = d.drawing.nodes := Forest.nodes_put _ _ _
  have lives {s' : Slot (Nat × Nat)} {other : BPtr} (live' : Live (d.put s l) place s' other) :
      Live d place s' other := by
    cases live' with
    | root started => exact .root started
    | field found hi hk => exact .field (nodes ▸ found) hi hk
  have moves {word : BPtr} {l' : Link Nat} {b₁ : Builder} (shows : Shows d place b₁ word l')
      (slot : b'.wordAt word.seg word.word = b₁.wordAt word.seg word.word)
      (words : ∀ s, (b₁.seg s).words ≤ (b'.seg s).words)
      (pads : ∀ s w, Spare d place s w → b₁.Used s w → b'.wordAt s w = b₁.wordAt s w) :
      Shows (d.put s l) place b' word l' := by
    refine shows.later slot words (fun id c found => ⟨rfl, c, by rwa [nodes], rfl⟩)
      fun s w spare used => ⟨⟨spare.1, ?_⟩, pads s w spare used⟩
    rw [nodes]
    exact spare.2
  have started := live.begun drawn
  constructor
  · exact writes.wf
  · exact fun begun => absurd (begun.symm.trans started) Bool.false_ne_true
  · exact fun begun => writes.used (drawn.started begun)
  · rw [nodes]
    exact fun id c found => live.keeps drawn writes found
  · rw [nodes]
    exact drawn.apart
  · intro s' other live'
    by_cases same : s' = s
    · subst same
      obtain rfl := live.same (lives live')
      rw [show (d.put s' l).drawing.link s' = l from Forest.link_put_self live.born]
      exact moves shows rfl (fun _ => le_rfl) fun _ _ _ _ => rfl
    · rw [show (d.put s l).drawing.link s' = d.drawing.link s' from Forest.link_put_of_ne same]
      exact moves (drawn.shows s' other (lives live')) (live.others drawn writes (lives live') same)
        writes.words_le fun _ _ spare used => live.pads writes spare used

/-- The pointers of an object are null. -/
def Bare (b : Builder) (host : BPtr) : Content → Prop
  | .block shape n nd np _ =>
      ∀ i < n, ∀ k < np, b.wordAt host.seg (Tree.slotOf shape nd np host.word i k) = 0
  | .flat _ => True

/-- An object that is hung into a slot is drawn with null pointers, and all else
stays. -/
theorem Drawn.hang (drawn : Drawn d place b) (live : Live d place s at')
    (hung : Hung b at' host c.words c.pointer b') (fits : c.Fits) (filled : c.Filled b' host)
    (bare : Bare b' host c) :
    Drawn (d.hang s c) (Function.update place d.drawing.nodes.length host) b' := by
  have born := live.born
  have writes := hung.writes
  have started := live.begun drawn
  have rootUsed := drawn.started started
  have self : Function.update place d.drawing.nodes.length host d.drawing.nodes.length = host :=
    Function.update_self _ _ _
  -- old objects are where they were
  have old {id : Nat} {c' : Content} (found : d.drawing.nodes[id]? = some c') :
      Function.update place d.drawing.nodes.length host id = place id :=
    Function.update_of_ne (List.getElem?_eq_some_iff.mp found).1.ne _ _
  have oldUsed {id : Nat} {c' : Content} (found : d.drawing.nodes[id]? = some c') {seg word : Nat}
      (within : Within (place id) c'.words seg word) : b.Used seg word := by
    obtain ⟨rfl, -, below⟩ := within
    exact below.trans_le (drawn.kept id c' found).inside
  have new {seg word : Nat} (within : Within host c.words seg word) : ¬b.Used seg word := by
    obtain ⟨rfl, low, high⟩ := within
    obtain ⟨i, rfl⟩ := Nat.exists_eq_add_of_le low
    exact hung.fresh i (by omega)
  have objects (id : Nat) (c' : Content) (found : d.drawing.nodes[id]? = some c') :
      Function.update place d.drawing.nodes.length host id = place id ∧
        ∃ c'', (d.hang s c).drawing.nodes[id]? = some c'' ∧ c''.pointer = c'.pointer :=
    ⟨old found, c', Forest.node_hang_old found born c, rfl⟩
  have spares {seg word : Nat} (spare : Spare d place seg word) (outside : ¬Within host c.words seg word) :
      Spare (d.hang s c) (Function.update place d.drawing.nodes.length host) seg word := by
    refine ⟨spare.1, fun id c' found => ?_⟩
    rcases Forest.node_hang_cases born found with ⟨rfl, rfl⟩ | before
    · rwa [self]
    · rw [old before]
      exact spare.2 id c' before
  constructor
  · exact writes.wf
  · exact fun begun => absurd (begun.symm.trans started) Bool.false_ne_true
  · exact fun _ => writes.used rootUsed
  · intro id c' found
    rcases Forest.node_hang_cases born found with ⟨rfl, rfl⟩ | before
    · rw [self]
      exact ⟨fits, hung.segLt, hung.inside, filled, fun root => new root rootUsed⟩
    · rw [old before]
      exact live.keeps drawn writes before
  · intro id id' c₁ c₂ found found' other seg word within within'
    rcases Forest.node_hang_cases born found with ⟨rfl, rfl⟩ | before
    · rw [self] at within
      rcases Forest.node_hang_cases born found' with ⟨rfl, rfl⟩ | before'
      · exact other rfl
      · rw [old before'] at within'
        exact new within (oldUsed before' within')
    · rw [old before] at within
      rcases Forest.node_hang_cases born found' with ⟨rfl, rfl⟩ | before'
      · rw [self] at within'
        exact new within' (oldUsed before within)
      · rw [old before'] at within'
        exact drawn.apart _ _ _ _ before before' other _ _ within within'
  · intro s' other live'
    -- the slots are those that were, and those of the new object
    have lives : Live d place s' other ∨ (d.hang s c).drawing.link s' = .null ∧
        b'.wordAt other.seg other.word = 0 := by
      cases live' with
      | root started => exact .inl (.root started)
      | @field id i k n nd np shape row found hi hk =>
          rcases Forest.node_hang_cases born found with ⟨rfl, rfl⟩ | before
          · rw [self]
            exact .inr ⟨Forest.link_hang_new born _, bare i hi k hk⟩
          · rw [old before]
            exact .inl (.field before hi hk)
    rcases lives with before | ⟨null, zero⟩
    · by_cases same : s' = s
      · subst same
        obtain rfl := live.same before
        rw [show (d.hang s' c).drawing.link s' = .node d.drawing.nodes.length from
          Forest.link_hang_self born]
        refine ⟨c, Forest.node_hang_new born, ?_, hung.hollow⟩
        rw [self]
        refine hung.leads.mono fun seg word own _ => spares ⟨?_, fun id c' found within => ?_⟩ own.2
        · rintro ⟨rfl, rfl⟩
          exact own.1 rootUsed
        · exact own.1 (oldUsed found within)
      · rw [show (d.hang s c).drawing.link s' = d.drawing.link s' from Forest.link_hang_of_ne same]
        exact (drawn.shows s' other before).later (live.others drawn writes before same)
          writes.words_le objects fun seg word spare used =>
            ⟨spares spare fun within => new within used, live.pads writes spare used⟩
    · rw [null]
      exact zero

/-- Changing the data of one row. -/
def rewrite (d : Draft) (id i : Nat) (shape : Shape) (n nd np : Nat) (row : Nat → Memory)
    (data : Memory) : Draft :=
  { d with drawing := d.drawing.rewrite id (.block shape n nd np (Function.update row i data)) }

/-- Data that is stored in a row is drawn, and all else stays. -/
theorem Drawn.rewrite (drawn : Drawn d place b) {id i n nd np offset width : Nat} {shape : Shape}
    {row : Nat → Memory} {data : Memory}
    (found : d.drawing.nodes[id]? = some (.block shape n nd np row)) (hi : i < n)
    (inside : offset + width ≤ nd * 8)
    (writes : Writes (fieldBytes ⟨(place id).seg, (place id).word + shape.header + i * (nd + np)⟩
      offset width) b b')
    (stored : ∀ k < nd * 8, (b'.seg (place id).seg).data
      (((place id).word + shape.header + i * (nd + np)) * 8 + k) = data k) :
    Drawn (d.rewrite id i shape n nd np row data) place b' := by
  have idLt := (List.getElem?_eq_some_iff.mp found).1
  have kept := drawn.kept id _ found
  -- what is touched is data of the row
  have touches {seg byte : Nat} (touch : fieldBytes ⟨(place id).seg, (place id).word + shape.header +
      i * (nd + np)⟩ offset width seg byte) : seg = (place id).seg ∧ ∃ k < nd * 8,
        byte = ((place id).word + shape.header + i * (nd + np)) * 8 + k := by
    obtain ⟨rfl, low, high⟩ := touch
    dsimp only at low high
    exact ⟨rfl, byte - ((place id).word + shape.header + i * (nd + np)) * 8, by omega, by omega⟩
  have isBody {seg byte : Nat} (touch : fieldBytes ⟨(place id).seg, (place id).word + shape.header +
      i * (nd + np)⟩ offset width seg byte) :
      (Content.block shape n nd np row).body (place id) seg byte := by
    obtain ⟨rfl, k, hk, rfl⟩ := touches touch
    exact ⟨rfl, .inr ⟨i, hi, k, hk, rfl⟩⟩
  have self : (d.rewrite id i shape n nd np row data).drawing.nodes[id]? =
      some (.block shape n nd np (Function.update row i data)) := Forest.node_rewrite_self idLt
  have others {id' : Nat} (other : id' ≠ id) :
      (d.rewrite id i shape n nd np row data).drawing.nodes[id']? = d.drawing.nodes[id']? :=
    Forest.node_rewrite_of_ne other
  -- the new content of an object differs in no size
  have olds {id' : Nat} {c' : Content}
      (found' : (d.rewrite id i shape n nd np row data).drawing.nodes[id']? = some c') :
      ∃ c₀, d.drawing.nodes[id']? = some c₀ ∧ c'.words = c₀.words ∧ c'.pointer = c₀.pointer := by
    by_cases same : id' = id
    · subst same
      rw [self] at found'
      cases found'
      exact ⟨_, found, rfl, by funext off; cases shape <;> rfl⟩
    · rw [others same] at found'
      exact ⟨c', found', rfl, rfl⟩
  have lives {s' : Slot (Nat × Nat)} {other : BPtr}
      (live' : Live (d.rewrite id i shape n nd np row data) place s' other) :
      Live d place s' other := by
    cases live' with
    | root started => exact .root started
    | @field id' i' k' n' nd' np' shape' row' found' hi' hk' =>
        by_cases same : id' = id
        · subst same
          rw [self] at found'
          obtain ⟨rfl, rfl, rfl, rfl, rfl⟩ := Content.block.inj (Option.some.inj found')
          exact .field found hi' hk'
        · rw [others same] at found'
          exact .field found' hi' hk'
  constructor
  · exact writes.wf
  · intro begun
    have blank := drawn.blank begun
    rw [blank] at found
    cases found
  · exact fun begun => writes.used (drawn.started begun)
  · intro id' c' found'
    by_cases same : id' = id
    · subst same
      rw [self] at found'
      cases found'
      refine ⟨kept.fits, kept.segLt.trans_le writes.nsegs_le, kept.inside.trans (writes.words_le _),
        ⟨fun composite => ?_, fun j hj k hk => ?_⟩, kept.behind⟩
      · rw [← kept.filled.1 composite]
        refine word_congr fun k hk => writes.kept _ _ ?_ fun touch => ?_
        · have whole := kept.inside
          rw [Content.words, composite, Shape.header] at whole
          omega
        · obtain ⟨-, x, -, same⟩ := touches touch
          rw [composite, Shape.header] at same
          omega
      · have room := Tree.row_le hj (nd + np)
        have whole := kept.inside
        rw [Content.words] at whole
        by_cases here : j = i
        · subst here
          rw [Function.update_self]
          exact stored k hk
        · rw [Function.update_of_ne here, ← kept.filled.2 j hj k hk]
          refine writes.kept _ _ (by omega) fun touch => here ?_
          obtain ⟨-, x, hx, same⟩ := touches touch
          exact (row_unique (w := nd + np) (x := k / 8) (y := x / 8) (by omega) (by omega)
            (show j * (nd + np) + k / 8 = i * (nd + np) + x / 8 by omega)).1
    · rw [others same] at found'
      refine (drawn.kept id' c' found').later writes fun byte body touch => ?_
      exact drawn.apart _ _ _ _ found' found same _ _ (Content.within_of_body body)
        (Content.within_of_body (isBody touch))
  · intro id₁ id₂ c₁ c₂ found₁ found₂ other seg word within within'
    obtain ⟨c₁', old₁, words₁, -⟩ := olds found₁
    obtain ⟨c₂', old₂, words₂, -⟩ := olds found₂
    rw [words₁] at within
    rw [words₂] at within'
    exact drawn.apart _ _ _ _ old₁ old₂ other _ _ within within'
  · intro s' other live'
    have live := lives live'
    refine (drawn.shows s' other live).later ?_ writes.words_le ?_ ?_
    · exact writes.wordAt_eq (live.used drawn) fun byte word touch =>
        live.not_body drawn found word (isBody touch)
    · intro id' c' found'
      refine ⟨rfl, ?_⟩
      by_cases same : id' = id
      · subst same
        rw [found] at found'
        cases found'
        exact ⟨_, self, by funext off; cases shape <;> rfl⟩
      · exact ⟨c', by rwa [others same], rfl⟩
    · intro seg word spare used
      refine ⟨⟨spare.1, fun id' c' found' within => ?_⟩, writes.wordAt_eq used fun byte same touch => ?_⟩
      · obtain ⟨c₀, old, words, -⟩ := olds found'
        rw [words] at within
        exact spare.2 id' c₀ old within
      · have within := Content.within_of_body (isBody touch)
        rw [same] at within
        exact spare.2 id _ found within

end

end Draft

end CapnpJanet
