import KineticGrid.Proofs.Ghost.Transaction
import KineticGrid.Proofs.Message.Contract
import KineticGrid.Proofs.Sweep.Passes
/-!
# Slabs of other sizes

Neighbours that do not agree on their slabs, in runs in which waits may expire and the ranks around
them do as they like. All that arrives of a slab is its letters, so what a neighbour's slab is like
is known only by their number. Main statements: a slab of another length than the one it is meant
for is refused, and nothing is merged; slabs of one length are merged, whatever their shapes.
-/

namespace KineticGrid

variable {W V E : Type}

/-! ## Messages of a rank -/

theorem Box.size_of_pack {b : Build} {block : Nat} {op : Transfer V E} {cells : Array V} {g : Grid}
    {r : Box} {values : List E} (hblock : 0 < block)
    (h : r.pack b block op cells g = .ok values) : r.size b = .ok values.length := by
  obtain ⟨n, hsize, hfill⟩ := exists_of_bind_eq_ok h
  rw [Groups.fill_eq hblock] at hfill
  rw [hsize, length_mapM_ok hfill, List.length_range]

theorem Slabs.sizes_of_packed {m : Mode} {e : Executor} {requested left right : Nat}
    {op : Transfer V E} {cells : Array V} {s : Slabs} {l r : List E}
    (h : (s.packed m e requested op cells left right).result = .ok (l, r)) :
    s.left.size m.build = .ok l.length ∧ s.right.size m.build = .ok r.length := by
  simp only [packed, Outcome.result_bind] at h
  obtain ⟨_, _, h⟩ := exists_of_bind_eq_ok h
  obtain ⟨_, _, h⟩ := exists_of_bind_eq_ok h
  obtain ⟨block, hblock, h⟩ := exists_of_bind_eq_ok h
  obtain ⟨l', hleft, h⟩ := exists_of_bind_eq_ok (Executor.exists_of_run h)
  obtain ⟨r', hright, h⟩ := exists_of_bind_eq_ok h
  cases h
  have hpos := Executor.block_pos hblock
  exact ⟨Box.size_of_pack hpos hleft, Box.size_of_pack hpos hright⟩

section

variable [Encoding W E] {contract : Contract W} {rank : Nat} {m : Mode} {e : Executor}
  {requested : Nat} {op : Transfer V E} {p : Neighbours} {tag : Tag} {outgoing incoming : Slabs}
  {cells : Array V}

/-- Whatever its slabs and cells are and whatever it receives, a rank sends two messages at most, of
as many values as the slabs have cells. -/
theorem exchange_honours_of_sent
    (hleft : ∀ values : List E, outgoing.left.size m.build = .ok values.length →
      contract ⟨rank, p.left, tag⟩ (Encoding.encodeAll values))
    (hright : ∀ values : List E, outgoing.right.size m.build = .ok values.length →
      contract ⟨rank, p.right, tag.offset 1⟩ (Encoding.encodeAll values)) :
    (exchange m e requested op p tag outgoing incoming cells : Task W (Array V)).Honours contract
      rank fun _ => True := by
  unfold exchange
  refine .checked_bind (fun idle _ => ?_) fun _ _ => trivial
  cases idle with
  | true => exact .outcome trivial
  | false =>
      refine .checked_bind (fun left _ => ?_) fun _ _ => trivial
      refine .checked_bind (fun right _ => ?_) fun _ _ => trivial
      refine .outcome_bind (fun packed hpacked => ?_) fun _ _ => trivial
      obtain ⟨hleftSize, hrightSize⟩ := Slabs.sizes_of_packed hpacked
      refine .checked_bind (fun fromRight _ => ?_) fun _ _ => trivial
      refine .checked_bind (fun fromLeft _ => ?_) fun _ _ => trivial
      refine .post_bind (.post_bind ?_)
      refine .send_bind (hleft _ hleftSize) (.send_bind (hright _ hrightSize) ?_)
      refine .take_bind trivial fun right _ => .take_bind trivial fun left _ => ?_
      refine .checked_bind (fun _ _ => ?_) fun _ _ => trivial
      refine .fallible_bind (fun rightIn _ => ?_) fun _ _ => trivial
      refine .checked_bind (fun _ _ => ?_) fun _ _ => trivial
      refine .fallible_bind (fun leftIn _ => ?_) fun _ _ => trivial
      exact .outcome trivial

/-- A rank whose slabs are valid makes of two messages that a contract allows what `received` says.
It may send whatever it likes. -/
theorem exchange_honours_of_received {good : Fallible (Array V) → Prop}
    (hfree : ∀ peer tag message, contract ⟨rank, peer, tag⟩ message) (hrequested : requested ≠ 0)
    (hout : outgoing.Valid) (hin : incoming.Valid) (hgrid : incoming.grid = outgoing.grid)
    (hg : outgoing.grid.extent.volume < wordSize)
    (hidle : isIdle m.build outgoing incoming = .ok false) (hroom : outgoing.HasRoom W E)
    (hroom' : incoming.HasRoom W E) (hcells : cells.size = outgoing.grid.extent.volume)
    (hnoRight : good (.error (.error (.link p.right .noSlab))))
    (hnoLeft : good (.error (.error (.link p.left .noSlab))))
    (hboth : ∀ right left, contract ⟨p.right, rank, tag⟩ right →
      contract ⟨p.left, rank, tag.offset 1⟩ left →
      good (received m e requested op p incoming cells (some right) (some left))) :
    (exchange m e requested op p tag outgoing incoming cells : Task W (Array V)).Honours contract
      rank good := by
  have hg' : incoming.grid.extent.volume < wordSize := by rw [hgrid]; exact hg
  obtain ⟨leftOut, rightOut, hpacked, _⟩ := hout.exists_packed hg m e op hrequested hcells
    (Nat.le_refl _) (Nat.le_refl _)
  unfold exchange
  refine .checked_ok_bind hidle ?_
  refine .checked_ok_bind (bufferSize_eq (hout.inside.left_lt hg) hroom.1) ?_
  refine .checked_ok_bind (bufferSize_eq (hout.inside.right_lt hg) hroom.2) ?_
  refine .ok_bind hpacked ?_
  refine .checked_ok_bind (messageLength_eq (hin.inside.right_lt hg') hroom'.2) ?_
  refine .checked_ok_bind (messageLength_eq (hin.inside.left_lt hg') hroom'.1) ?_
  refine .post_bind (.post_bind ?_)
  refine .send_bind (hfree _ _ _) (.send_bind (hfree _ _ _) ?_)
  refine .take_bind hnoRight fun right hright => .take_bind hnoLeft fun left hleft => ?_
  have hgood := hboth right left hright hleft
  rw [received] at hgood
  -- what is left is computed without the channel
  refine .checked_ok_bind (Box.size_eq (hin.inside.right_lt hg')) ?_
  refine .fallible_bind (fun rightIn hdecode => ?_) fun failure hdecode => ?_
  · rw [hdecode] at hgood
    refine .checked_ok_bind (Box.size_eq (hin.inside.left_lt hg')) ?_
    refine .fallible_bind (fun leftIn hdecode' => ?_) fun failure hdecode' => ?_
    · refine .outcome ?_
      rw [ok_bind, hdecode'] at hgood
      exact hgood
    · rw [ok_bind, hdecode'] at hgood
      exact hgood
  · rw [hdecode] at hgood
    exact hgood

end

/-! ## Along one axis -/

def Contract.lengthFrom (source length : Nat) : Contract W :=
  fun address message => address.source = source → message.length = length

section

variable [Encoding W E] {t : Topology} {m : Mode} {e : Executor} {requested : Nat}
  {op : Transfer V E} {flow : Flow} {a : Axis} {p : Neighbours} {tag : Tag} {cells : Array V}

theorem Flow.letters_sent (side : Side) :
    ((flow.sent t a).on side).letters W E = (t.slabShape a).volume * Encoding.width W E := by
  rw [Box.letters, sent_shape]

theorem Flow.letters_merged (side : Side) :
    ((flow.merged t a).on side).letters W E = (t.slabShape a).volume * Encoding.width W E := by
  rw [Box.letters, merged_shape]

theorem Flow.hasRoom_sent_iff : (flow.sent t a).HasRoom W E ↔
    (t.slabShape a).volume * Encoding.width W E ≤ maxArrayBytes := by
  change ((flow.sent t a).on .left).letters W E ≤ _ ∧
    ((flow.sent t a).on .right).letters W E ≤ _ ↔ _
  rw [letters_sent, letters_sent, and_self_iff]

theorem Flow.hasRoom_merged_iff : (flow.merged t a).HasRoom W E ↔
    (t.slabShape a).volume * Encoding.width W E ≤ maxArrayBytes := by
  change ((flow.merged t a).on .left).letters W E ≤ _ ∧
    ((flow.merged t a).on .right).letters W E ≤ _ ↔ _
  rw [letters_merged, letters_merged, and_self_iff]

/-- What a rank sends along an axis is as long as a message with the cells of its slab, whether or
not it goes through with the exchange. -/
theorem exchangeAxis_honours_lengthFrom [LawfulEncoding W E] (ht : t.Sized) (rank : Nat) :
    (exchangeAxis m e requested op flow t a p tag cells : Task W (Array V)).Honours
      (.lengthFrom rank ((t.slabShape a).volume * Encoding.width W E)) rank fun _ => True := by
  have hlength (side : Side) (values : List E)
      (hsize : ((flow.sent t a).on side).size m.build = .ok values.length) :
      (Encoding.encodeAll values : List W).length =
        (t.slabShape a).volume * Encoding.width W E := by
    have hvalid := flow.sent_valid ht.holds a
    have hle : ((flow.sent t a).on side).shape.volume ≤ t.extent.volume := by
      rw [← flow.sent_extent t a]
      cases side
      · exact hvalid.left.volume_le
      · exact hvalid.right.volume_le
    rw [Box.size_eq (Nat.lt_of_le_of_lt hle ht.volume_lt), Except.ok.injEq,
      Flow.sent_shape] at hsize
    rw [Encoding.length_encodeAll, ← hsize]
  unfold exchangeAxis
  split
  · refine .checked_ok_bind (flow.outgoing_eq ht.holds a) ?_
    refine .checked_ok_bind (flow.incoming_eq ht.holds a) ?_
    exact exchange_honours_of_sent (fun values hsize _ => hlength .left values hsize)
      fun values hsize _ => hlength .right values hsize
  · exact .outcome trivial

/-- A rank that gets only messages of another length than its slab from its neighbour on one side
refuses what it gets. -/
theorem exchangeAxis_honours_refusal (ht : t.Sized) (ha : t.isDecomposed a = true)
    (hrequested : requested ≠ 0) (hcells : cells.size = t.extent.volume)
    (hroom : (flow.merged t a).HasRoom W E) {i length : Nat} {side : Side} (hside : p.on side ≠ i)
    (hlength : length ≠ ((flow.merged t a).on side).letters W E) :
    (exchangeAxis m e requested op flow t a p tag cells : Task W (Array V)).Honours
      (.lengthFrom (p.on side) length) i fun r => ∃ failure,
        r = Fallible.reject (.link p.left failure) ∨
        r = Fallible.reject (.link p.right failure) := by
  have hout := flow.sent_valid ht.holds a
  have hin := flow.merged_valid ht.holds a
  have hg : (flow.sent t a).grid.extent.volume < wordSize := by
    rw [Flow.sent_extent]
    exact ht.volume_lt
  have hg' : (flow.merged t a).grid.extent.volume < wordSize := by
    rw [Flow.merged_extent]
    exact ht.volume_lt
  have hidle : isIdle m.build (flow.sent t a) (flow.merged t a) = .ok false := by
    have hslab := ht.holds.volume_slabShape_pos (Topology.isDecomposed_iff.1 ha)
    have hleft : (flow.sent t a).left.shape = t.slabShape a := flow.sent_shape t a .left
    rw [isIdle_eq hout hin hg hg', hleft, decide_eq_false (by omega)]
  unfold exchangeAxis
  rw [if_pos ha]
  refine .checked_ok_bind (flow.outgoing_eq ht.holds a) ?_
  refine .checked_ok_bind (flow.incoming_eq ht.holds a) ?_
  refine exchange_honours_of_received (fun _ _ _ hi => absurd hi.symm hside) hrequested hout hin
    (by rw [Flow.sent_grid, Flow.merged_grid]) hg hidle
    (Flow.hasRoom_sent_iff.2 (Flow.hasRoom_merged_iff.1 hroom)) hroom
    (by rw [Flow.sent_extent]; exact hcells) ⟨_, .inr rfl⟩ ⟨_, .inl rfl⟩
    fun right left hright hleft => ?_
  by_cases hr : right.length = (flow.merged t a).right.letters W E
  · cases side with
    | left =>
        -- the right message is as it should be, so the left one is looked at
        have hl : left.length ≠ (flow.merged t a).left.letters W E := by
          rw [hleft rfl]
          exact hlength
        exact ⟨_, .inl (received_eq_reject_left hroom hr hl)⟩
    | right => exact absurd ((hright rfl).symm.trans hr) hlength
  · exact ⟨_, .inr (received_eq_reject_right hroom hr)⟩

end

/-- A slab of another length is never merged. If the slab that a rank sends along an axis takes more
or fewer letters than the slab that its neighbour merges it into, the neighbour's exchange fails
with an error of communication and changes no cell, whatever the cells are, whatever all other ranks
do, and whether or not the messages arrive in time. -/
theorem slabs_of_other_length_refused [Encoding W E] [LawfulEncoding W E] {n i j : Nat}
    {t t' : Topology} (ht : t.Sized) (ht' : t'.Sized) (m m' : Mode) (e e' : Executor)
    {requested requested' : Nat} (hrequested : requested ≠ 0) (op op' : Transfer V E)
    (flow : Flow) {a : Axis} (ha : t.isDecomposed a = true) (p p' : Neighbours) (tag tag' : Tag)
    (side : Side) (hside : p.on side = j) (hij : i ≠ j) {outgoing incoming : Slabs}
    (houtgoing : flow.outgoing m'.build t' a = .ok outgoing)
    (hincoming : flow.incoming m.build t a = .ok incoming)
    (hlength : (outgoing.on side.other).letters W E ≠ (incoming.on side).letters W E)
    (hroom : incoming.HasRoom W E) {cells cells' : Array V} (hcells : cells.size = t.extent.volume)
    (programs : Nat → Program W (Array V × Outcome Unit))
    (hreceiver : programs i =
      Step.ofTask (exchangeAxis m e requested op flow t a p tag) cells)
    (hsender : programs j =
      Step.ofTask (exchangeAxis m' e' requested' op' flow t' a p' tag') cells') :
    (World.launch n programs).Concludes n fun k v => k = i → v.1 = cells ∧ ∃ failure,
      v.2.result = Fallible.reject (.link p.left failure) ∨
      v.2.result = Fallible.reject (.link p.right failure) := by
  obtain rfl := Except.ok.inj ((flow.outgoing_eq ht'.holds a).symm.trans houtgoing)
  obtain rfl := Except.ok.inj ((flow.incoming_eq ht.holds a).symm.trans hincoming)
  subst hside
  rw [Flow.letters_sent] at hlength
  have hprograms (k : Nat) : (programs k).Honours
      (.lengthFrom (p.on side) ((t'.slabShape a).volume * Encoding.width W E)) k fun v => k = i →
        v.1 = cells ∧ ∃ failure, v.2.result = Fallible.reject (.link p.left failure) ∨
          v.2.result = Fallible.reject (.link p.right failure) := by
    by_cases hk : k = i
    · subst hk
      rw [hreceiver]
      refine .mono (Step.honours_ofTask (exchangeAxis_honours_refusal ht ha hrequested hcells
        hroom (Ne.symm hij) hlength)) ?_
      rintro ⟨after, result⟩ ⟨⟨log, _⟩, ⟨failure, rfl | rfl⟩, rfl, hresult⟩ _
      · exact ⟨rfl, failure, .inl hresult⟩
      · exact ⟨rfl, failure, .inr hresult⟩
    · by_cases hk' : k = p.on side
      · subst hk'
        rw [hsender]
        exact .mono (Step.honours_ofTask (exchangeAxis_honours_lengthFrom ht' _))
          fun _ _ h => absurd h hk
      · exact .mono (.of_free (fun _ _ _ h => absurd h hk') _) fun _ _ h => absurd h hk
  exact World.concludes_of_honours fun k _ => hprograms k

def exchangeOfPair (t : Nat → Topology) (i : Nat) : Program UInt8 (Array UInt32 × Outcome Unit) :=
  Step.ofTask (exchangeAxis ⟨.debug, .off⟩ .shared 1 .copy .refresh (t i) .x ⟨1 - i, 1 - i⟩ ⟨7⟩)
    ((t i).extent.table fun c => .ofNat (10 * i + (t i).extent.slot c))

/-- A rank with two layers of ghost cells refuses the slab of a rank with one. -/
theorem slabs_of_other_length_refused_layers :
    ∃ v, (World.launch 2 (exchangeOfPair fun i =>
        if i = 0 then ⟨⟨8, 1, 1⟩, ⟨2, 0, 0⟩⟩ else .four)).run.Done 0 v ∧
      v.1 = #[0, 1, 2, 3, 4, 5, 6, 7] ∧
      ∃ failure, v.2.result = Fallible.reject (.link 1 failure) := by
  have hconcludes := slabs_of_other_length_refused (W := UInt8) (V := UInt32) (E := UInt32)
    (n := 2) (i := 0) (t := ⟨⟨8, 1, 1⟩, ⟨2, 0, 0⟩⟩) ⟨rfl, by decide⟩
    Topology.fits_four.toSized ⟨.debug, .off⟩ ⟨.debug, .off⟩ .shared .shared Nat.one_ne_zero
    .copy .copy .refresh (a := .x) rfl ⟨1, 1⟩ ⟨0, 0⟩ ⟨7⟩ ⟨7⟩ .left rfl Nat.zero_ne_one rfl rfl
    (by decide) ⟨by decide, by decide⟩ rfl
    (exchangeOfPair fun i => if i = 0 then ⟨⟨8, 1, 1⟩, ⟨2, 0, 0⟩⟩ else .four) rfl rfl
  obtain ⟨v, hdone, hgood⟩ := hconcludes.run Nat.two_pos
  obtain ⟨hcells, failure, hresult⟩ := hgood rfl
  exact ⟨v, hdone, hcells.trans (by decide), failure, hresult.elim id id⟩

/-! ## Slabs of one length -/

/-- The values after ranks copied the slabs of one axis over each other, slot by slot. -/
def Fields.copied (flow : Flow) (t : Nat → Topology) (a : Axis) (p : Nat → Neighbours)
    (F : Fields V) : Fields V := fun i c =>
  ((flow.merged (t i) a).incoming?
    ((flow.sent (t (p i).left) a).right.packs .copy (F (p i).left))
    ((flow.sent (t (p i).right) a).left.packs .copy (F (p i).right)) c).getD (F i c)

/-- Slabs of one length are merged, even if their shapes differ: what is in a slot of one slab
comes into the same slot of the other. -/
theorem slabs_of_one_length_copied [Encoding W V] [LawfulEncoding W V] {n : Nat}
    {p : Nat → Neighbours} (hp : Linked n p) {t : Nat → Topology} (ht : ∀ i < n, (t i).Fits)
    (m : Mode) (e : Executor) {requested : Nat} (hrequested : requested ≠ 0) (flow : Flow)
    {a : Axis} (ha : ∀ i < n, (t i).isDecomposed a = true) (size : Nat)
    (hsize : ∀ i < n, ((t i).slabShape a).volume = size)
    (hbytes : ∀ i < n, (t i).extent.volume * Encoding.width W V ≤ maxArrayBytes) (tag : Tag)
    (F : Fields V) :
    (World.launch n fun i => (Step.ofTask (exchangeAxis m e requested .copy flow (t i) a (p i) tag)
      : Step W (Array V)) ((t i).extent.table (F i))).Ends n fun i v =>
        v.1 = (t i).extent.table (F.copied flow t a p i) ∧ v.2.result = .ok () := by
  have hlength {i : Nat} (hi : i < n) (side : Side) (f : Vec3 Nat → V) :
      (((flow.sent (t i) a).on side).packs .copy f : List V).length = size := by
    rw [Box.length_packs, Flow.sent_shape, hsize i hi]
  have hlockstep : Lockstep n
      (fun i => (Step.ofTask (exchangeAxis m e requested .copy flow (t i) a (p i) tag) :
        Step W (Array V)))
      [swapPhase n p tag (size * Encoding.width W V) fun i =>
        flow.message .copy (t i) a (F i)]
      (fun i => (t i).extent.table (F i)) fun i => (t i).extent.table (F.copied flow t a p i) := by
    intro i hi
    have hgives := exchangeAxis_gives_script (W := W) (ht i hi) m e .copy flow (ha i hi) (p i) tag
      (hbytes i hi) hrequested (F i) (F.copied flow t a p i)
      ((flow.sent (t (p i).left) a).right.packs .copy (F (p i).left))
      ((flow.sent (t (p i).right) a).left.packs .copy (F (p i).right))
      ((hlength (hp.left_lt i hi) .right _).trans (hsize i hi).symm)
      ((hlength (hp.right_lt i hi) .left _).trans (hsize i hi).symm)
      (fun c _ => by
        unfold Fields.copied
        cases (flow.merged (t i) a).incoming? _ _ c <;> rfl) i
    rw [hsize i hi] at hgives
    rw [phaseScripts, List.flatMap_singleton, script_swapPhase hi]
    exact Step.does_ofTask hgives
  refine hlockstep.ends (fun q hq => ?_) fun k j _ _ _ hkj hk hj => ?_
  · rw [List.mem_singleton.1 hq]
    exact hp.swapPhase_valid
  · have hlt := (List.getElem?_eq_some_iff.1 hj).1
    rw [List.length_singleton] at hlt
    omega

/-- Two topologies whose slabs across the first axis have two cells each, in one of them side by
side across the axis and in the other one behind the other. -/
def Topology.crossed (i : Nat) : Topology :=
  if i = 0 then ⟨⟨4, 2, 1⟩, ⟨1, 0, 0⟩⟩ else ⟨⟨8, 1, 1⟩, ⟨2, 0, 0⟩⟩

/-- The boundary slabs of one topology and the ghost slabs of the other have different extents, and
their ranks copy these slabs over each other all the same. -/
theorem slabs_of_other_shape_merged :
    Topology.make ⟨4, 2, 1⟩ ⟨1, 0, 0⟩ = .ok (.crossed 0) ∧
    Topology.make ⟨8, 1, 1⟩ ⟨2, 0, 0⟩ = .ok (.crossed 1) ∧
    (∃ outgoing incoming, Flow.refresh.outgoing .debug (.crossed 0) .x = .ok outgoing ∧
      Flow.refresh.incoming .debug (.crossed 1) .x = .ok incoming ∧
      outgoing.left.extent = ⟨1, 2, 1⟩ ∧ incoming.right.extent = ⟨2, 1, 1⟩) ∧
    ∃ history w, (World.launch 2 (exchangeOfPair .crossed)).Run history w ∧
      (∃ v, w.Done 0 v ∧ v.2.result = .ok () ∧ v.1 = #[14, 1, 2, 12, 15, 5, 6, 13]) ∧
      ∃ v, w.Done 1 v ∧ v.2.result = .ok () ∧ v.1 = #[2, 6, 12, 13, 14, 15, 1, 5] := by
  have hends := slabs_of_one_length_copied (W := UInt8) (V := UInt32) (n := 2)
    (p := fun i => ⟨1 - i, 1 - i⟩) ⟨by decide, by decide, by decide, by decide⟩ (t := .crossed)
    (fun i _ => by
      unfold Topology.crossed
      split
      · exact ⟨⟨rfl, by decide⟩, by decide⟩
      · exact ⟨⟨rfl, by decide⟩, by decide⟩)
    ⟨.debug, .off⟩ .shared Nat.one_ne_zero .refresh (a := .x) (by decide) 2 (by decide)
    (by decide) ⟨7⟩ fun i c => .ofNat (10 * i + (Topology.crossed i).extent.slot c)
  obtain ⟨history, w, run, hstuck⟩ :=
    World.exists_run_stuck (World.launch 2 (exchangeOfPair .crossed))
  obtain ⟨hdone, _⟩ := hends.done_of_stuck run hstuck
  obtain ⟨v, hv⟩ := hdone 0 (by decide)
  obtain ⟨v', hv'⟩ := hdone 1 (by decide)
  obtain ⟨hcells, hresult⟩ := hends.good_of_done run 0 (by decide) v hv
  obtain ⟨hcells', hresult'⟩ := hends.good_of_done run 1 (by decide) v' hv'
  exact ⟨rfl, rfl, ⟨_, _, rfl, rfl, rfl, rfl⟩, history, w, run,
    ⟨v, hv, hresult, hcells.trans (by decide)⟩, v', hv', hresult', hcells'.trans (by decide)⟩

end KineticGrid
