import KineticGrid.Proofs.Ghost.Merging
import KineticGrid.Proofs.Message.Codec
import KineticGrid.Proofs.Message.Lockstep
import KineticGrid.Proofs.Space.Slabs
/-!
# Exchanges along one axis

What an exchange sends and takes, and which value is merged into which cell. Main statements: an
exchange of valid slabs follows its script, and when all ranks of a ring exchange the slabs of one
axis, each cell of a slab is merged with one cell of a neighbour, which lies one core width away.
-/

namespace KineticGrid

variable {W V E : Type}

/-! ## One rank -/

section

variable [Encoding W E]

theorem bufferSize_eq {b : Build} {width : Nat} {r : Box} (h : r.shape.volume < wordSize)
    (hbytes : r.shape.volume * width ≤ maxArrayBytes) :
    bufferSize b width r = .ok r.shape.volume := by
  rw [bufferSize, Box.size_eq h]
  change (reserve (r.shape.volume * width) >>= _) = _
  rw [reserve, if_pos hbytes]
  rfl

theorem messageLength_eq {b : Build} {width : Nat} {r : Box} (h : r.shape.volume < wordSize)
    (hbytes : r.shape.volume * width ≤ maxArrayBytes) :
    messageLength b width r = .ok (r.shape.volume * width) := by
  rw [messageLength, Box.size_eq h]
  change (b.word (r.shape.volume * width) >>= _) = _
  rw [Build.word_eq (Nat.lt_of_le_of_lt hbytes (by decide))]
  change (reserve (r.shape.volume * width) >>= _) = _
  rw [reserve, if_pos hbytes]
  rfl

theorem isIdle_eq {s s' : Slabs} (hs : s.Valid) (hs' : s'.Valid)
    (hg : s.grid.extent.volume < wordSize) (hg' : s'.grid.extent.volume < wordSize) (b : Build) :
    isIdle b s s' = .ok (decide (s.left.shape.volume + s.right.shape.volume = 0 ∧
      s'.left.shape.volume + s'.right.shape.volume = 0)) := by
  rw [isIdle, hs.isEmpty_eq hg, hs'.isEmpty_eq hg']
  change (if decide _ = true then Except.ok _ else Except.ok false) = _
  by_cases hempty : s.left.shape.volume + s.right.shape.volume = 0
  · rw [if_pos (decide_eq_true hempty)]
    simp only [hempty, true_and]
  · rw [if_neg (mt of_decide_eq_true hempty)]
    simp only [hempty, false_and, decide_false]

/-- What a rank does in an exchange of two pairs of slabs, where the messages that it takes hold
given values. -/
def exchangeScript (p : Neighbours) (tag : Tag) (fromRight fromLeft : Nat)
    (leftOut rightOut rightIn leftIn : List W) : List (Event W) :=
  [.posted p.right tag fromRight, .posted p.left (tag.offset 1) fromLeft,
    .sent p.left tag leftOut, .sent p.right (tag.offset 1) rightOut,
    .took p.right tag rightIn, .took p.left (tag.offset 1) leftIn]

variable [LawfulEncoding W E]

theorem exchange_gives {m : Mode} (e : Executor) {requested : Nat} (op : Transfer V E)
    (p : Neighbours) (tag : Tag) {s s' : Slabs} (hs : s.Valid) (hs' : s'.Valid)
    (hgrid : s'.grid = s.grid) (hg : s.grid.extent.volume < wordSize)
    (hpos : 0 < s.left.shape.volume + s.right.shape.volume)
    (hrows : s.grid.extent.y * s.grid.extent.z ≤ word32Size)
    (hbytes : s.grid.extent.volume * Encoding.width W E ≤ maxArrayBytes)
    (hrequested : requested ≠ 0) (f f' : Vec3 Nat → V) (leftIn rightIn : List E)
    (hl : leftIn.length = s'.left.shape.volume) (hr : rightIn.length = s'.right.shape.volume)
    (hmerge : ∀ c, s.grid.extent.Has c →
      op.mergeAt (f c) (s'.incoming? leftIn rightIn c) = .ok (f' c)) (i : Nat) :
    (exchange m e requested op p tag s s' (s.grid.extent.table f) : Task W (Array V)).Gives i
      (exchangeScript p tag (s'.right.shape.volume * Encoding.width W E)
        (s'.left.shape.volume * Encoding.width W E) (Encoding.encodeAll (s.left.packs op f))
        (Encoding.encodeAll (s.right.packs op f)) (Encoding.encodeAll rightIn)
        (Encoding.encodeAll leftIn)) (s.grid.extent.table f') := by
  have hg' : s'.grid.extent.volume < wordSize := by rw [hgrid]; exact hg
  have hfits {k : Nat} (hk : k ≤ s.grid.extent.volume) :
      k * Encoding.width W E ≤ maxArrayBytes :=
    Nat.le_trans (Nat.mul_le_mul_right _ hk) hbytes
  have hl' : s'.left.shape.volume * Encoding.width W E ≤ maxArrayBytes :=
    hfits (by rw [← hgrid]; exact hs'.left.volume_le)
  have hr' : s'.right.shape.volume * Encoding.width W E ≤ maxArrayBytes :=
    hfits (by rw [← hgrid]; exact hs'.right.volume_le)
  have hidle : isIdle m.build s s' = .ok false := by
    rw [isIdle_eq hs hs' hg hg', decide_eq_false (by omega)]
  have hload : s'.Loaded (s'.grid.extent.table f) leftIn rightIn :=
    hs'.inside.loaded hg' (by rw [hgrid]; exact hrows) (Extent.size_table _ f) (by omega) (by omega)
  have hunpack := hs'.result_unpack m e op hrequested f f' hload (by rw [hgrid]; exact hmerge)
  rw [hgrid] at hunpack
  have hdecode {xs : List E} {n : Nat} (hn : xs.length = n)
      (hle : n * Encoding.width W E ≤ maxArrayBytes) (neighbour : Nat) :
      Encoding.decodeAll m.build neighbour (Encoding.encodeAll xs : List W) n = .ok xs := by
    rw [← hn] at hle ⊢
    exact Encoding.decodeAll_encodeAll _ _ _ (Nat.lt_of_le_of_lt hle (by decide))
  unfold exchange
  refine .checked_bind hidle ?_
  refine .checked_bind (bufferSize_eq (hs.inside.left_lt hg) (hfits hs.left.volume_le)) ?_
  refine .checked_bind (bufferSize_eq (hs.inside.right_lt hg) (hfits hs.right.volume_le)) ?_
  refine .outcome_bind (hs.result_packed hg m e op f hrequested (Nat.le_refl _)
    (Nat.le_refl _)) ?_
  refine .checked_bind (messageLength_eq (hs'.inside.right_lt hg') hr') ?_
  refine .checked_bind (messageLength_eq (hs'.inside.left_lt hg') hl') ?_
  refine .bind (Task.gives_post i p.right tag _) ?_
  refine .bind (Task.gives_post i p.left (tag.offset 1) _) ?_
  refine .bind (Task.gives_send i p.left tag _) ?_
  refine .bind (Task.gives_send i p.right (tag.offset 1) _) ?_
  refine .bind (Task.gives_take i p.right tag _ _) ?_
  refine .bind (Task.gives_take i p.left (tag.offset 1) _ _) ?_
  refine .checked_bind (Box.size_eq (hs'.inside.right_lt hg')) ?_
  refine .fallible_bind (hdecode hr hr' _) ?_
  refine .checked_bind (Box.size_eq (hs'.inside.left_lt hg')) ?_
  refine .fallible_bind (hdecode hl hl' _) ?_
  exact Task.gives_outcome i hunpack

end

/-! ## The phase of an axis -/

/-- Ranks along an axis: each is the right neighbour of its left neighbour and the left neighbour
of its right one. -/
structure Linked (n : Nat) (p : Nat → Neighbours) : Prop where
  left_lt : ∀ i < n, (p i).left < n
  right_lt : ∀ i < n, (p i).right < n
  right_left : ∀ i < n, (p (p i).left).right = i
  left_right : ∀ i < n, (p (p i).right).left = i

theorem Tag.offset_one_ne (tag : Tag) : tag.offset 1 ≠ tag := by
  intro h
  have hvalue := congrArg Tag.value h
  change tag.value + 1 = tag.value at hvalue
  have hnat := congrArg UInt16.toNat hvalue
  rw [UInt16.toNat_add] at hnat
  change (tag.value.toNat + 1) % 65536 = _ at hnat
  have hlt : tag.value.toNat < 65536 := tag.value.toNat_lt
  omega

/-- All ranks send one message to each side, of one length. -/
def swapPhase (n : Nat) (p : Nat → Neighbours) (tag : Tag) (length : Nat)
    (message : Nat → Side → List W) : Phase W where
  posts i := if i < n then
    [((p i).right, tag, length), ((p i).left, tag.offset 1, length)] else []
  sends i := if i < n then
    [((p i).left, tag, message i .left), ((p i).right, tag.offset 1, message i .right)] else []
  takes i := if i < n then
    [((p i).right, tag, message (p i).right .left),
      ((p i).left, tag.offset 1, message (p i).left .right)] else []

section

variable {n : Nat} {p : Nat → Neighbours} {tag : Tag} {length : Nat}
  {message : Nat → Side → List W}

theorem script_swapPhase {i : Nat} (hi : i < n) :
    (swapPhase n p tag length message).script i =
      exchangeScript (p i) tag length length (message i .left) (message i .right)
        (message (p i).right .left) (message (p i).left .right) := by
  simp only [Phase.script, swapPhase, if_pos hi, exchangeScript, List.map_cons, List.map_nil,
    List.cons_append, List.nil_append]

theorem Linked.swapPhase_valid (h : Linked n p) :
    (swapPhase n p tag length message).Valid n where
  outside i hi := by
    simp [Phase.script, swapPhase, Nat.not_lt.2 hi]
  sends_nodup i := by
    by_cases hi : i < n
    · simp [swapPhase, hi, Ne.symm tag.offset_one_ne]
    · simp [swapPhase, hi]
  takes_nodup i := by
    by_cases hi : i < n
    · simp [swapPhase, hi, Ne.symm tag.offset_one_ne]
    · simp [swapPhase, hi]
  matched i peer tag' letters := by
    -- what goes out to one side comes in from the other, because the ranks are linked both ways
    have hout : (peer, tag', letters) ∈ (swapPhase n p tag length message).sends i ↔
        i < n ∧ ((peer = (p i).left ∧ tag' = tag ∧ letters = message i .left) ∨
          (peer = (p i).right ∧ tag' = tag.offset 1 ∧ letters = message i .right)) := by
      by_cases hi : i < n <;> simp [swapPhase, hi]
    have hin : (i, tag', letters) ∈ (swapPhase n p tag length message).takes peer ↔
        peer < n ∧ ((i = (p peer).right ∧ tag' = tag ∧ letters = message (p peer).right .left) ∨
          (i = (p peer).left ∧ tag' = tag.offset 1 ∧
            letters = message (p peer).left .right)) := by
      by_cases hpeer : peer < n <;> simp [swapPhase, hpeer]
    rw [hout, hin]
    constructor
    · rintro ⟨hi, ⟨rfl, rfl, rfl⟩ | ⟨rfl, rfl, rfl⟩⟩
      · refine ⟨h.left_lt i hi, .inl ⟨(h.right_left i hi).symm, rfl, ?_⟩⟩
        rw [h.right_left i hi]
      · refine ⟨h.right_lt i hi, .inr ⟨(h.left_right i hi).symm, rfl, ?_⟩⟩
        rw [h.left_right i hi]
    · rintro ⟨hpeer, ⟨rfl, rfl, rfl⟩ | ⟨rfl, rfl, rfl⟩⟩
      · exact ⟨h.right_lt peer hpeer, .inl ⟨(h.left_right peer hpeer).symm, rfl, rfl⟩⟩
      · exact ⟨h.left_lt peer hpeer, .inr ⟨(h.right_left peer hpeer).symm, rfl, rfl⟩⟩

theorem uses_swapPhase_iff {a : Address} :
    (swapPhase n p tag length message).Uses a ↔ a.source < n ∧
      ((a.target = (p a.source).left ∧ a.tag = tag) ∨
        (a.target = (p a.source).right ∧ a.tag = tag.offset 1)) := by
  by_cases hi : a.source < n
  · have hsends : (swapPhase n p tag length message).sends a.source =
        [((p a.source).left, tag, message a.source .left),
          ((p a.source).right, tag.offset 1, message a.source .right)] := if_pos hi
    simp only [Phase.Uses, hsends, List.mem_cons, Prod.mk.injEq, List.not_mem_nil, or_false, hi,
      true_and]
    constructor
    · rintro ⟨_, ⟨htarget, htag, _⟩ | ⟨htarget, htag, _⟩⟩
      · exact .inl ⟨htarget, htag⟩
      · exact .inr ⟨htarget, htag⟩
    · rintro (⟨htarget, htag⟩ | ⟨htarget, htag⟩)
      · exact ⟨_, .inl ⟨htarget, htag, rfl⟩⟩
      · exact ⟨_, .inr ⟨htarget, htag, rfl⟩⟩
  · simp [Phase.Uses, swapPhase, hi]

end

/-! ## The values of all ranks -/

/-- The cell of a neighbour whose value is merged into a cell, and the side of that neighbour. -/
def Flow.source? (flow : Flow) (t : Topology) (a : Axis) (c : Vec3 Nat) :
    Option (Side × Vec3 Nat) :=
  if flow.inset t a ≤ c.get a ∧ c.get a < flow.inset t a + t.halo a then
    some (.left, c.set a (c.get a + t.core a))
  else if t.core a + t.halo a ≤ c.get a + flow.inset t a ∧
      c.get a + flow.inset t a < t.core a + 2 * t.halo a then
    some (.right, c.set a (c.get a - t.core a))
  else none

abbrev Fields (V : Type) := Nat → Vec3 Nat → V

def Fields.exchanged (merge : V → V → V) (flow : Flow) (t : Topology) (a : Axis)
    (p : Nat → Neighbours) (F : Fields V) : Fields V := fun i c =>
  match flow.source? t a c with
  | none => F i c
  | some (side, c') => merge (F i c) (F ((p i).on side) c')

namespace Flow

variable {t : Topology}

theorem source?_eq_left {flow : Flow} {a : Axis} {c : Vec3 Nat}
    (h : flow.inset t a ≤ c.get a ∧ c.get a < flow.inset t a + t.halo a) :
    flow.source? t a c = some (.left, c.set a (c.get a + t.core a)) := by
  rw [source?, if_pos h]

theorem source?_eq_right (ht : t.Holds) {flow : Flow} {a : Axis} {c : Vec3 Nat}
    (h : t.core a + t.halo a ≤ c.get a + flow.inset t a ∧
      c.get a + flow.inset t a < t.core a + 2 * t.halo a) :
    flow.source? t a c = some (.right, c.set a (c.get a - t.core a)) := by
  have hcore := ht.core_eq a
  have hinset := flow.inset_le t a
  rw [source?, if_neg (by omega), if_pos h]

theorem source?_eq_none {flow : Flow} {a : Axis} {c : Vec3 Nat}
    (hleft : ¬(flow.inset t a ≤ c.get a ∧ c.get a < flow.inset t a + t.halo a))
    (hright : ¬(t.core a + t.halo a ≤ c.get a + flow.inset t a ∧
      c.get a + flow.inset t a < t.core a + 2 * t.halo a)) : flow.source? t a c = none := by
  rw [source?, if_neg hleft, if_neg hright]

theorem source?_eq_none_of_halo {a : Axis} (h : t.halo a = 0) (flow : Flow) (c : Vec3 Nat) :
    flow.source? t a c = none := by
  have hinset := flow.inset_le t a
  exact source?_eq_none (by omega) (by omega)

/-- The values that neighbours packed reach the cells they are merged into. -/
theorem incoming?_eq (h : t.Holds) (flow : Flow) (a : Axis) (op : Transfer V E)
    (f : Side → Vec3 Nat → V) {c : Vec3 Nat} (hc : t.extent.Has c) :
    (flow.merged t a).incoming? ((flow.sent t a).right.packs op (f .left))
        ((flow.sent t a).left.packs op (f .right)) c =
      (flow.source? t a c).map fun (side, c') => op.pack (f side c') := by
  obtain ⟨l, r, l', r', hsent, hmerged, hl, hr, hl', hr'⟩ := flow.exists_starts h a
  have hhas (start : UInt32) : (t.slab a start).Has c ↔
      start.toNat ≤ c.get a ∧ c.get a < start.toNat + t.halo a := by
    rw [Topology.slab_has_iff]
    exact ⟨And.right, fun hrange => ⟨fun b _ => hc b, hrange⟩⟩
  have hitem {start start' : UInt32} (hcell : (t.slab a start).Has c) (side : Side) :
      ((t.slab a start').packs op (f side))[(t.slab a start).slotAt c]? =
        some (op.pack (f side (c.set a (c.get a - start.toNat + start'.toNat)))) := by
    have hslot := Box.slotAt_lt hcell
    rw [Topology.slab_shape] at hslot
    rw [Box.getElem?_packs op _ (by rw [Topology.slab_shape]; exact hslot),
      Topology.cellAt_slab_slotAt hcell]
  have hcore := h.core_eq a
  have hinset := flow.inset_le t a
  rw [Slabs.incoming?, hsent, hmerged, source?]
  change (if (t.slab a l').Has c then
      ((t.slab a r).packs op (f .left))[(t.slab a l').slotAt c]?
    else if (t.slab a r').Has c then
      ((t.slab a l).packs op (f .right))[(t.slab a r').slotAt c]? else none) = _
  by_cases hleft : (t.slab a l').Has c
  · have hrange := (hhas l').1 hleft
    rw [if_pos hleft, if_pos (by omega), hitem hleft, Option.map_some]
    congr 4
    omega
  · have hrange := mt (hhas l').2 hleft
    have hnear : ¬(flow.inset t a ≤ c.get a ∧ c.get a < flow.inset t a + t.halo a) := by omega
    rw [if_neg hleft, if_neg hnear]
    by_cases hright : (t.slab a r').Has c
    · have hrange' := (hhas r').1 hright
      rw [if_pos hright, if_pos (by omega), hitem hright, Option.map_some]
      congr 4
      omega
    · have hrange' := mt (hhas r').2 hright
      rw [if_neg hright, if_neg (by omega), Option.map_none]

end Flow

namespace Flow

variable [Encoding W E]

def message (op : Transfer V E) (flow : Flow) (t : Topology) (a : Axis) (f : Vec3 Nat → V)
    (side : Side) : List W :=
  Encoding.encodeAll (((flow.sent t a).on side).packs op f)

def phases (n : Nat) (op : Transfer V E) (flow : Flow) (t : Topology) (a : Axis)
    (p : Nat → Neighbours) (tag : Tag) (F : Fields V) : List (Phase W) :=
  if t.isDecomposed a then
    [swapPhase n p tag ((t.slabShape a).volume * Encoding.width W E) fun i =>
      flow.message op t a (F i)]
  else []

end Flow

/-- What a rank does along a decomposed axis, where the messages that it takes hold as many values
as its slabs have cells. -/
theorem exchangeAxis_gives_script [Encoding W E] [LawfulEncoding W E] {t : Topology} (ht : t.Fits)
    (m : Mode) (e : Executor) {requested : Nat} (op : Transfer V E) (flow : Flow) {a : Axis}
    (ha : t.isDecomposed a = true) (p : Neighbours) (tag : Tag)
    (hbytes : t.extent.volume * Encoding.width W E ≤ maxArrayBytes) (hrequested : requested ≠ 0)
    (f f' : Vec3 Nat → V) (leftIn rightIn : List E) (hl : leftIn.length = (t.slabShape a).volume)
    (hr : rightIn.length = (t.slabShape a).volume)
    (hmerge : ∀ c, t.extent.Has c →
      op.mergeAt (f c) ((flow.merged t a).incoming? leftIn rightIn c) = .ok (f' c)) (i : Nat) :
    (exchangeAxis m e requested op flow t a p tag (t.extent.table f) : Task W (Array V)).Gives i
      (exchangeScript p tag ((t.slabShape a).volume * Encoding.width W E)
        ((t.slabShape a).volume * Encoding.width W E) (flow.message op t a f .left)
        (flow.message op t a f .right) (Encoding.encodeAll rightIn) (Encoding.encodeAll leftIn))
      (t.extent.table f') := by
  have hslab := ht.holds.volume_slabShape_pos (Topology.isDecomposed_iff.1 ha)
  have hsent := flow.sent_shape t a
  have hmerged := flow.merged_shape t a
  have hleft : (flow.sent t a).left.shape = t.slabShape a := hsent .left
  have hright : (flow.sent t a).right.shape = t.slabShape a := hsent .right
  have hleft' : (flow.merged t a).left.shape = t.slabShape a := hmerged .left
  have hright' : (flow.merged t a).right.shape = t.slabShape a := hmerged .right
  have hgrid := flow.sent_extent t a
  unfold exchangeAxis
  rw [if_pos ha]
  refine .checked_bind (flow.outgoing_eq ht.holds a) ?_
  refine .checked_bind (flow.incoming_eq ht.holds a) ?_
  have hgives := exchange_gives (W := W) (m := m) e op p tag (flow.sent_valid ht.holds a)
    (flow.merged_valid ht.holds a) (by rw [Flow.sent_grid, Flow.merged_grid])
    (by rw [hgrid]; exact ht.volume_lt) (by rw [hleft, hright]; omega)
    (by rw [hgrid]; exact ht.rows_le) (by rw [hgrid]; exact hbytes) hrequested f f' leftIn rightIn
    (by rw [hl, hleft']) (by rw [hr, hright']) (by rw [hgrid]; exact hmerge) i
  rw [hgrid, hleft', hright'] at hgives
  exact hgives

/-- In an exchange along one axis of a ring, a rank goes through the phase of the axis, and its
cells are merged with those of its neighbours. -/
theorem exchangeAxis_gives [Encoding W E] [LawfulEncoding W E] {n : Nat} {p : Nat → Neighbours}
    {t : Topology} (ht : t.Fits) (m : Mode) (e : Executor) {requested : Nat}
    (op : Transfer V E) (flow : Flow) (a : Axis) (tag : Tag) {F : Fields V}
    (merge : V → V → V) (hbytes : t.extent.volume * Encoding.width W E ≤ maxArrayBytes)
    (hrequested : requested ≠ 0) {i : Nat} (hi : i < n)
    (hmerge : ∀ c side c', t.extent.Has c → flow.source? t a c = some (side, c') →
      op.merge (F i c) (op.pack (F ((p i).on side) c')) =
        .ok (merge (F i c) (F ((p i).on side) c'))) :
    (exchangeAxis m e requested op flow t a (p i) tag (t.extent.table (F i)) :
      Task W (Array V)).Gives i (phaseScripts (flow.phases n op t a p tag F) i)
        (t.extent.table (F.exchanged merge flow t a p i)) := by
  unfold Flow.phases
  by_cases hdecomposed : t.isDecomposed a = true
  · have hleft : (flow.sent t a).left.shape = t.slabShape a := flow.sent_shape t a .left
    have hright : (flow.sent t a).right.shape = t.slabShape a := flow.sent_shape t a .right
    rw [if_pos hdecomposed, phaseScripts, List.flatMap_singleton, script_swapPhase hi]
    refine exchangeAxis_gives_script ht m e op flow hdecomposed (p i) tag hbytes hrequested (F i)
      (F.exchanged merge flow t a p i) ((flow.sent t a).right.packs op (F (p i).left))
      ((flow.sent t a).left.packs op (F (p i).right)) (by rw [Box.length_packs, hright])
      (by rw [Box.length_packs, hleft]) (fun c hc => ?_) i
    have hincoming := flow.incoming?_eq ht.holds a op (fun side => F ((p i).on side)) hc
    dsimp only [Neighbours.on] at hincoming
    rw [hincoming, Fields.exchanged]
    cases hsource : flow.source? t a c with
    | none => rfl
    | some source => exact hmerge c source.1 source.2 hc hsource
  · have hhalo : t.halo a = 0 := by
      rw [Topology.isDecomposed_iff] at hdecomposed
      omega
    have hsame : F.exchanged merge flow t a p i = F i := by
      funext c
      rw [Fields.exchanged, Flow.source?_eq_none_of_halo hhalo]
    unfold exchangeAxis
    rw [if_neg hdecomposed, if_neg hdecomposed, hsame]
    exact Task.gives_pure i _

end KineticGrid
