import KineticGrid.Proofs.Ghost.Exchange
import KineticGrid.Proofs.Ghost.Unpacking
import KineticGrid.Proofs.Message.Dialogue
/-!
# Exchanges as transactions

An exchange over a channel that may answer anything: other messages than the neighbours sent, or
none. Main statement: whatever it is answered, an exchange asks for the same two messages and sends
the same two, and then either merges both answers or changes no cell and names the neighbour whose
message is missing or has the wrong length.
-/

namespace KineticGrid

variable {W V E : Type} [Encoding W E]

/-- The number of letters of a message with the cells of a box. -/
abbrev Box.letters (W E : Type) [Encoding W E] (r : Box) : Nat :=
  r.shape.volume * Encoding.width W E

/-- Memory can hold a message with the cells of each slab. -/
def Slabs.HasRoom (W E : Type) [Encoding W E] (s : Slabs) : Prop :=
  s.left.letters W E ≤ maxArrayBytes ∧ s.right.letters W E ≤ maxArrayBytes

/-- What an exchange asks of its channel and is answered. The left message is waited for only if the
right one arrived. -/
def exchangeTurns (p : Neighbours) (tag : Tag) (incoming : Slabs) (leftOut rightOut : List E)
    (rightReceive leftReceive : Receive W) (right left : Option (List W)) : List (Turn W) :=
  [.posted p.right tag (incoming.right.letters W E) rightReceive,
    .posted p.left (tag.offset 1) (incoming.left.letters W E) leftReceive,
    .sent p.left tag (Encoding.encodeAll leftOut),
    .sent p.right (tag.offset 1) (Encoding.encodeAll rightOut),
    .waited rightReceive right] ++
    if right.isSome then [.waited leftReceive left] else []

def received (m : Mode) (e : Executor) (requested : Nat) (op : Transfer V E) (p : Neighbours)
    (incoming : Slabs) (cells : Array V) (right left : Option (List W)) : Fallible (Array V) :=
  match right, left with
  | none, _ => Fallible.reject (.link p.right .noSlab)
  | some _, none => Fallible.reject (.link p.left .noSlab)
  | some right, some left => do
    let rightIn ← Encoding.decodeAll m.build p.right right incoming.right.shape.volume
    let leftIn ← Encoding.decodeAll m.build p.left left incoming.left.shape.volume
    (incoming.unpack m e requested op cells leftIn rightIn).result

/-- How an exchange ends that was answered with these messages: it merges both of them, or it
changes no cell and names the first one that is not as it should be. -/
structure ExchangeEnd (m : Mode) (e : Executor) (requested : Nat) (op : Transfer V E)
    (p : Neighbours) (incoming : Slabs) (cells : Array V) (right left : Option (List W))
    (after : Array V) (result : Fallible Unit) : Prop where
  /-- An exchange succeeds only if both messages arrived and have exactly the right length. -/
  of_success : result = .ok () → ∃ r l, right = some r ∧ left = some l ∧
    r.length = incoming.right.letters W E ∧ l.length = incoming.left.letters W E
  of_both : ∀ r l, right = some r → left = some l → r.length = incoming.right.letters W E →
    l.length = incoming.left.letters W E → ∃ rightIn leftIn,
      Encoding.decodeAll m.build p.right r incoming.right.shape.volume = .ok rightIn ∧
      Encoding.decodeAll m.build p.left l incoming.left.shape.volume = .ok leftIn ∧
      (incoming.Mergeable m.build op cells leftIn rightIn → result = .ok () ∧
        (incoming.unpack m e requested op cells leftIn rightIn).result = .ok after ∧
        ∀ i c, incoming.grid.coords m.build i = .ok c → incoming.left.contains c = false →
          incoming.right.contains c = false → after[i]? = cells[i]?)
  of_no_right : right = none →
    result = .error (.error (.link p.right .noSlab)) ∧ after = cells
  of_no_left : ∀ r, right = some r → left = none →
    result = .error (.error (.link p.left .noSlab)) ∧ after = cells
  of_wrong_right : ∀ r l, right = some r → left = some l →
    r.length ≠ incoming.right.letters W E →
    result = .error (.error (.link p.right
      (.wrongLength (incoming.right.letters W E) r.length))) ∧ after = cells
  of_wrong_left : ∀ r l, right = some r → left = some l →
    r.length = incoming.right.letters W E → l.length ≠ incoming.left.letters W E →
    result = .error (.error (.link p.left
      (.wrongLength (incoming.left.letters W E) l.length))) ∧ after = cells

section

variable {m : Mode} {e : Executor} {requested : Nat} {op : Transfer V E} {p : Neighbours}
  {tag : Tag} {outgoing incoming : Slabs}

/-- The dialogues of an exchange, one for each answer of the channel. -/
theorem exchange_leads_iff (hrequested : requested ≠ 0) (hout : outgoing.Valid)
    (hin : incoming.Valid) (hgrid : incoming.grid = outgoing.grid)
    (hg : outgoing.grid.extent.volume < wordSize)
    (hidle : isIdle m.build outgoing incoming = .ok false) (hroom : outgoing.HasRoom W E)
    (hroom' : incoming.HasRoom W E) (f : Vec3 Nat → V) {turns : List (Turn W)}
    {r : Fallible (Array V)} :
    (exchange m e requested op p tag outgoing incoming (outgoing.grid.extent.table f) :
        Task W (Array V)).Leads turns r ↔
      ∃ rightReceive leftReceive right left,
        turns = exchangeTurns p tag incoming (outgoing.left.packs op f)
          (outgoing.right.packs op f) rightReceive leftReceive right left ∧
        r = received m e requested op p incoming (outgoing.grid.extent.table f) right left := by
  have hg' : incoming.grid.extent.volume < wordSize := by rw [hgrid]; exact hg
  have htail (right left : List W) (turns : List (Turn W)) : (do
      let rightIn ← Encoding.decodeAll m.build p.right right (← incoming.right.size m.build)
      let leftIn ← Encoding.decodeAll m.build p.left left (← incoming.left.size m.build)
      incoming.unpack m e requested op (outgoing.grid.extent.table f) leftIn rightIn :
        Task W (Array V)).Leads turns r ↔ turns = [] ∧
      r = received m e requested op p incoming (outgoing.grid.extent.table f) (some right)
        (some left) := by
    refine (Task.leads_checked_bind (Box.size_eq (hin.inside.right_lt hg'))).trans ?_
    refine Task.leads_fallible_bind fun rightIn => ?_
    refine (Task.leads_checked_bind (Box.size_eq (hin.inside.left_lt hg'))).trans ?_
    exact Task.leads_fallible_bind fun leftIn => Task.leads_outcome
  unfold exchange
  refine (Task.leads_checked_bind hidle).trans ?_
  refine (Task.leads_checked_bind (bufferSize_eq (hout.inside.left_lt hg) hroom.1)).trans ?_
  refine (Task.leads_checked_bind (bufferSize_eq (hout.inside.right_lt hg) hroom.2)).trans ?_
  refine (Task.leads_ok_bind (hout.result_packed hg m e op f hrequested (Nat.le_refl _)
    (Nat.le_refl _))).trans ?_
  refine (Task.leads_checked_bind (messageLength_eq (hin.inside.right_lt hg') hroom'.2)).trans ?_
  refine (Task.leads_checked_bind (messageLength_eq (hin.inside.left_lt hg') hroom'.1)).trans ?_
  constructor
  · intro h
    obtain ⟨rightReceive, _, rfl, hposted⟩ := Task.leads_post_bind.1 h
    obtain ⟨leftReceive, _, rfl, hposted'⟩ := Task.leads_post_bind.1 hposted
    obtain ⟨_, rfl, hsent⟩ := Task.leads_send_bind.1 hposted'
    obtain ⟨_, rfl, hsent'⟩ := Task.leads_send_bind.1 hsent
    rcases Task.leads_take_bind.1 hsent' with ⟨right, _, rfl, hright⟩ | ⟨rfl, rfl⟩
    · rcases Task.leads_take_bind.1 hright with ⟨left, _, rfl, hleft⟩ | ⟨rfl, rfl⟩
      · obtain ⟨rfl, rfl⟩ := (htail right left _).1 hleft
        exact ⟨rightReceive, leftReceive, some right, some left, rfl, rfl⟩
      · exact ⟨rightReceive, leftReceive, some right, none, rfl, rfl⟩
    · exact ⟨rightReceive, leftReceive, none, none, rfl, rfl⟩
  · rintro ⟨rightReceive, leftReceive, right, left, rfl, rfl⟩
    refine Task.leads_post_bind.2 ⟨rightReceive, _, rfl, ?_⟩
    refine Task.leads_post_bind.2 ⟨leftReceive, _, rfl, ?_⟩
    refine Task.leads_send_bind.2 ⟨_, rfl, ?_⟩
    refine Task.leads_send_bind.2 ⟨_, rfl, ?_⟩
    cases right with
    | none => exact Task.leads_take_bind.2 (.inr ⟨rfl, rfl⟩)
    | some right =>
        refine Task.leads_take_bind.2 (.inl ⟨right, _, rfl, ?_⟩)
        cases left with
        | none => exact Task.leads_take_bind.2 (.inr ⟨rfl, rfl⟩)
        | some left =>
            exact Task.leads_take_bind.2 (.inl ⟨left, _, rfl, (htail right left _).2 ⟨rfl, rfl⟩⟩)

section

variable {cells : Array V} {right left : List W}

theorem received_eq_reject_right (hroom : incoming.HasRoom W E)
    (hright : right.length ≠ incoming.right.letters W E) :
    received m e requested op p incoming cells (some right) (some left) = Fallible.reject
      (.link p.right (.wrongLength (incoming.right.letters W E) right.length)) := by
  rw [received, Encoding.decodeAll_eq_reject _ _ (Nat.lt_of_le_of_lt hroom.2 (by decide)) hright]
  rfl

theorem received_eq_reject_left (hroom : incoming.HasRoom W E)
    (hright : right.length = incoming.right.letters W E)
    (hleft : left.length ≠ incoming.left.letters W E) :
    received m e requested op p incoming cells (some right) (some left) = Fallible.reject
      (.link p.left (.wrongLength (incoming.left.letters W E) left.length)) := by
  obtain ⟨rightIn, hdecode, _⟩ := Encoding.exists_decodeAll (E := E) m.build
    p.right (Nat.lt_of_le_of_lt hroom.2 (by decide)) hright
  rw [received, hdecode,
    Encoding.decodeAll_eq_reject _ _ (Nat.lt_of_le_of_lt hroom.1 (by decide)) hleft]
  rfl

theorem exists_received (m : Mode) (e : Executor) (requested : Nat) (op : Transfer V E)
    (p : Neighbours) (cells : Array V) (hroom : incoming.HasRoom W E)
    (hright : right.length = incoming.right.letters W E)
    (hleft : left.length = incoming.left.letters W E) :
    ∃ rightIn leftIn : List E,
      Encoding.decodeAll m.build p.right right incoming.right.shape.volume = .ok rightIn ∧
      Encoding.decodeAll m.build p.left left incoming.left.shape.volume = .ok leftIn ∧
      rightIn.length = incoming.right.shape.volume ∧ leftIn.length = incoming.left.shape.volume ∧
      received m e requested op p incoming cells (some right) (some left) =
        (incoming.unpack m e requested op cells leftIn rightIn).result := by
  obtain ⟨rightIn, hdecode, hlength⟩ := Encoding.exists_decodeAll (E := E) m.build
    p.right (Nat.lt_of_le_of_lt hroom.2 (by decide)) hright
  obtain ⟨leftIn, hdecode', hlength'⟩ := Encoding.exists_decodeAll (E := E) m.build
    p.left (Nat.lt_of_le_of_lt hroom.1 (by decide)) hleft
  refine ⟨rightIn, leftIn, hdecode, hdecode', hlength, hlength', ?_⟩
  rw [received, hdecode, hdecode']
  rfl

end

section

variable {cells : Array V}

theorem unpack_outside {left right : List E} (hin : incoming.Valid)
    (hload : incoming.Loaded cells left right) (hrequested : requested ≠ 0)
    (hmerge : incoming.Mergeable m.build op cells left right) :
    ∃ merged, (incoming.unpack m e requested op cells left right).result = .ok merged ∧
      ∀ i c, incoming.grid.coords m.build i = .ok c → incoming.left.contains c = false →
        incoming.right.contains c = false → merged[i]? = cells[i]? := by
  obtain ⟨merged, hresult, hsize, hvalues⟩ := hin.exists_unpacked hload m e op hrequested
    fun i v hv => hmerge.exists_mergeAt hin hload.volume_lt hload.size_cells hv
  exact ⟨merged, hresult, fun _ _ => Slabs.outside_of_merged hload hsize hvalues⟩

theorem received_end (hrequested : requested ≠ 0) (hin : incoming.Valid)
    (hg : incoming.grid.extent.volume < wordSize)
    (hrows : incoming.grid.extent.y * incoming.grid.extent.z ≤ word32Size)
    (hroom : incoming.HasRoom W E) (hcells : cells.size = incoming.grid.extent.volume)
    (right left : Option (List W)) (log : List Record) :
    ExchangeEnd m e requested op p incoming cells right left
      ((⟨log, received m e requested op p incoming cells right left⟩ : Outcome (Array V)).valueD
        cells) ((received m e requested op p incoming cells right left).map fun _ => ()) where
  of_success hok := by
    cases right with
    | none => cases hok
    | some r =>
        cases left with
        | none => cases hok
        | some l =>
            by_cases hright : r.length = incoming.right.letters W E
            · by_cases hleft : l.length = incoming.left.letters W E
              · exact ⟨r, l, rfl, rfl, hright, hleft⟩
              · rw [received_eq_reject_left hroom hright hleft] at hok
                cases hok
            · rw [received_eq_reject_right hroom hright] at hok
              cases hok
  of_both := by
    rintro r l rfl rfl hright hleft
    obtain ⟨rightIn, leftIn, hdecode, hdecode', hlength, hlength', heq⟩ :=
      exists_received m e requested op p cells hroom hright hleft
    refine ⟨rightIn, leftIn, hdecode, hdecode', fun hmerge => ?_⟩
    have hload := hin.inside.loaded hg hrows hcells (Nat.le_of_eq hlength'.symm)
      (Nat.le_of_eq hlength.symm)
    obtain ⟨merged, hresult, houtside⟩ := unpack_outside (e := e) hin hload hrequested hmerge
    rw [heq, hresult]
    exact ⟨rfl, rfl, houtside⟩
  of_no_right := by
    rintro rfl
    exact ⟨rfl, rfl⟩
  of_no_left := by
    rintro r rfl rfl
    exact ⟨rfl, rfl⟩
  of_wrong_right := by
    rintro r l rfl rfl hright
    rw [received_eq_reject_right hroom hright]
    exact ⟨rfl, rfl⟩
  of_wrong_left := by
    rintro r l rfl rfl hright hleft
    rw [received_eq_reject_left hroom hright hleft]
    exact ⟨rfl, rfl⟩

end

end

/-- An exchange is all or nothing on every channel. Whatever it is answered, it posts one receive
on each side, sends the packed slabs, and waits; with both messages of the right length it merges
both, and otherwise it changes no cell and names the first message that is missing or has another
length. Memory has to hold the four messages. -/
theorem exchange_all_or_nothing (m : Mode) (e : Executor) {requested : Nat}
    (hrequested : requested ≠ 0) (op : Transfer V E) (p : Neighbours) (tag : Tag)
    (outgoing incoming : Slabs) (hout : outgoing.validate m.build = .ok ())
    (hin : incoming.validate m.build = .ok ()) (hgrid : incoming.grid = outgoing.grid)
    (hg : outgoing.grid.extent.volume < wordSize)
    (hrows : outgoing.grid.extent.y * outgoing.grid.extent.z ≤ word32Size)
    (hbusy : isIdle m.build outgoing incoming ≠ .ok true) (hroom : outgoing.HasRoom W E)
    (hroom' : incoming.HasRoom W E) (cells : Array V)
    (hcells : cells.size = outgoing.grid.extent.volume) :
    ∃ leftOut rightOut, (outgoing.packed m e requested op cells outgoing.left.shape.volume
        outgoing.right.shape.volume).result = .ok (leftOut, rightOut) ∧
      (∀ rightReceive leftReceive right left, ∃ after x,
        ((Step.ofTask (exchange m e requested op p tag outgoing incoming) : Step W (Array V))
          cells).Talks (exchangeTurns p tag incoming leftOut rightOut rightReceive leftReceive
            right left) (after, x)) ∧
      ∀ turns after x,
        ((Step.ofTask (exchange m e requested op p tag outgoing incoming) : Step W (Array V))
          cells).Talks turns (after, x) →
        ∃ rightReceive leftReceive right left,
          turns = exchangeTurns p tag incoming leftOut rightOut rightReceive leftReceive
            right left ∧
          ExchangeEnd m e requested op p incoming cells right left after x.result := by
  have hout := (Slabs.validate_eq_ok_iff hg).1 hout
  have hg' : incoming.grid.extent.volume < wordSize := by rw [hgrid]; exact hg
  have hin := (Slabs.validate_eq_ok_iff hg').1 hin
  have hidle := isIdle_eq hout hin hg hg' m.build
  have hpos : 0 < outgoing.grid.extent.volume := by
    have hsum := hout.volume_add_le
    have hsum' := hin.volume_add_le
    rw [hgrid] at hsum'
    by_contra hzero
    rw [decide_eq_true ⟨by omega, by omega⟩] at hidle
    exact hbusy hidle
  have hbusy : isIdle m.build outgoing incoming = .ok false := by
    rw [hidle] at hbusy ⊢
    rw [ne_eq, Except.ok.injEq, Bool.not_eq_true] at hbusy
    rw [hbusy]
  obtain ⟨f, rfl⟩ := Extent.exists_table hcells hpos
  refine ⟨_, _, hout.result_packed hg m e op f hrequested (Nat.le_refl _) (Nat.le_refl _), ?_, ?_⟩
  · intro rightReceive leftReceive right left
    obtain ⟨log, htalks⟩ := (exchange_leads_iff hrequested hout hin hgrid hg hbusy hroom hroom'
      f).2 ⟨rightReceive, leftReceive, right, left, rfl, rfl⟩
    exact ⟨_, _, Program.talks_map.2 ⟨_, htalks, rfl⟩⟩
  · intro turns after x h
    obtain ⟨⟨log, r⟩, htalks, heq⟩ := Program.talks_map.1 h
    cases heq
    obtain ⟨rightReceive, leftReceive, right, left, rfl, rfl⟩ :=
      (exchange_leads_iff hrequested hout hin hgrid hg hbusy hroom hroom' f).1 ⟨log, htalks⟩
    exact ⟨rightReceive, leftReceive, right, left, rfl, received_end hrequested hin hg'
      (by rw [hgrid]; exact hrows) hroom' (by rw [hgrid]; exact hcells) right left log⟩

theorem exchange_all_or_nothing_four :
    ∃ leftOut rightOut : List UInt32, ∃ x,
      ((Step.ofTask (exchange ⟨.debug, .off⟩ .shared 1 .copy ⟨0, 0⟩ ⟨65535⟩
          ⟨⟨⟨4, 1, 1⟩⟩, ⟨⟨1, 0, 0⟩, ⟨1, 1, 1⟩⟩, ⟨⟨2, 0, 0⟩, ⟨1, 1, 1⟩⟩⟩
          ⟨⟨⟨4, 1, 1⟩⟩, ⟨⟨0, 0, 0⟩, ⟨1, 1, 1⟩⟩, ⟨⟨3, 0, 0⟩, ⟨1, 1, 1⟩⟩⟩) :
        Step UInt8 (Array UInt32)) #[10, 11, 12, 13]).Talks
        (exchangeTurns ⟨0, 0⟩ ⟨65535⟩
          ⟨⟨⟨4, 1, 1⟩⟩, ⟨⟨0, 0, 0⟩, ⟨1, 1, 1⟩⟩, ⟨⟨3, 0, 0⟩, ⟨1, 1, 1⟩⟩⟩ leftOut rightOut
          (.settled none) (.settled none) (some [9, 0, 0, 0]) (some [7]))
        (#[10, 11, 12, 13], x) ∧
      x.result = .error (.error (.link 0 (.wrongLength 4 1))) := by
  obtain ⟨leftOut, rightOut, _, hevery, hend⟩ := exchange_all_or_nothing (W := UInt8)
    ⟨.debug, .off⟩ .shared Nat.one_ne_zero (.copy : Transfer UInt32 UInt32) ⟨0, 0⟩ ⟨65535⟩
    ⟨⟨⟨4, 1, 1⟩⟩, ⟨⟨1, 0, 0⟩, ⟨1, 1, 1⟩⟩, ⟨⟨2, 0, 0⟩, ⟨1, 1, 1⟩⟩⟩
    ⟨⟨⟨4, 1, 1⟩⟩, ⟨⟨0, 0, 0⟩, ⟨1, 1, 1⟩⟩, ⟨⟨3, 0, 0⟩, ⟨1, 1, 1⟩⟩⟩ (by decide) (by decide) rfl
    (by decide) (by decide) (by decide) ⟨by decide, by decide⟩ ⟨by decide, by decide⟩
    #[10, 11, 12, 13] rfl
  obtain ⟨after, x, htalks⟩ := hevery (.settled none) (.settled none) (some [9, 0, 0, 0])
    (some [7])
  obtain ⟨_, _, right, left, hturns, hends⟩ := hend _ after x htalks
  simp only [exchangeTurns] at hturns
  cases right with
  | none => simp at hturns
  | some right =>
      simp at hturns
      obtain ⟨hresult, rfl⟩ := hends.of_wrong_left [9, 0, 0, 0] [7] (by simp [hturns])
        (by simp [hturns]) rfl (by decide)
      exact ⟨leftOut, rightOut, x, htalks, hresult⟩

end KineticGrid
