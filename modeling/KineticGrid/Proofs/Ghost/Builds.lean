import KineticGrid.Ghost.Exchange
import KineticGrid.Proofs.Message.Refinement
import KineticGrid.Proofs.Sweep.Builds
/-!
# Slab buffers and exchanges in the two builds

Main statements: slabs are packed, merged and exchanged in the same way by both builds, with the
same messages in the same order, unless the checked build stops.
-/

namespace KineticGrid

variable {W S A V E : Type}

/-! ## Transfers -/

structure Transfer.Refines (op op' : Transfer V E) : Prop where
  pack_eq : op'.pack = op.pack
  merge_refines (here : V) (incoming : E) :
    Checked.Refines (op.merge here incoming) (op'.merge here incoming)

namespace Transfer

theorem Refines.refl (op : Transfer V E) : op.Refines op := ⟨rfl, fun _ _ => .refl _⟩

/-- Only the sum of two counts can leave its word. -/
theorem heat_refines [Storage S A] (rule : Rule) :
    (heat .debug rule : Transfer (Heat S) (HeatRecord S)).Refines (heat .release rule) where
  pack_eq := rfl
  merge_refines here incoming := by
    refine RefinesUnless.bind ?_ fun count => .refl _
    cases rule with
    | overwrite => exact .refl _
    | add => exact Build.add32_refines _ _

end Transfer

/-! ## Buffers -/

section

variable {op op' : Transfer V E}

theorem Box.pack_refines (h : op.Refines op') (block : Nat) (cells : Array V) (grid : Grid)
    (box : Box) :
    Checked.Refines (box.pack .debug block op cells grid)
      (box.pack .release block op' cells grid) := by
  unfold pack
  rw [h.pack_eq]
  refine box.size_refines.bind fun n => .fill block (fun slot => ?_) n
  refine (box.coords_refines slot).bind fun c => ?_
  exact (grid.slot_refines c).bind fun c => .refl _

theorem Box.rows_refines (grid : Grid) (box : Box) (buffer : List E) :
    Checked.Refines (box.rows .debug grid buffer) (box.rows .release grid buffer) := by
  unfold rows
  refine box.isEmpty_refines.bind fun empty => .ite (fun _ => .refl _) fun _ => ?_
  refine box.size_refines.bind fun n => .mapM (fun row => ?_) _
  refine (Build.add32_refines _ _).bind fun y => ?_
  refine (Build.add32_refines _ _).bind fun z => ?_
  exact (grid.slot_refines _).bind fun start => .refl _

theorem Piece.merge_refines (h : op.Refines op') (p : Piece V E) :
    Checked.Refines (p.merge op) (p.merge op') :=
  RefinesUnless.bind (.mapM (fun _ => h.merge_refines _ _) _) fun _ => .refl _

namespace Slabs

theorem requireBuffers_refines (s : Slabs) (cells left right : Nat) :
    Fallible.Refines (s.requireBuffers .debug cells left right)
      (s.requireBuffers .release cells left right) := by
  unfold requireBuffers
  refine (Fallible.Refines.lift s.grid.size_refines).bind fun n => ?_
  refine RefinesUnless.bind (.refl _) fun _ => ?_
  refine (Fallible.Refines.lift s.left.size_refines).bind fun l => ?_
  refine .ite (fun _ => .refl _) fun _ => ?_
  exact (Fallible.Refines.lift s.right.size_refines).bind fun r => .refl _

theorem packed_refines (level : Level) (e : Executor) (requested : Nat) (h : op.Refines op')
    (cells : Array V) (s : Slabs) (left right : Nat) :
    Outcome.Refines (s.packed ⟨.debug, level⟩ e requested op cells left right)
      (s.packed ⟨.release, level⟩ e requested op' cells left right) := by
  unfold packed
  refine (Outcome.Refines.liftChecked s.assert_refines).bind fun _ => ?_
  refine (Outcome.Refines.lift (s.requireBuffers_refines _ _ _)).bind fun _ => ?_
  refine Outcome.Refines.bind (.refl _) fun block => .run level .pack ?_
  refine (s.left.pack_refines h block cells s.grid).bind fun l => ?_
  exact (s.right.pack_refines h block cells s.grid).bind fun r => .refl _

theorem pack_refines (level : Level) (e : Executor) (requested : Nat) (h : op.Refines op')
    (cells : Array V) (s : Slabs) (left right : List E) :
    Outcome.Refines (s.pack ⟨.debug, level⟩ e requested op cells left right)
      (s.pack ⟨.release, level⟩ e requested op' cells left right) :=
  (packed_refines level e requested h cells s _ _).bind fun _ => .refl _

theorem unpack_refines (level : Level) (e : Executor) (requested : Nat) (h : op.Refines op')
    (cells : Array V) (s : Slabs) (left right : List E) :
    Outcome.Refines (s.unpack ⟨.debug, level⟩ e requested op cells left right)
      (s.unpack ⟨.release, level⟩ e requested op' cells left right) := by
  unfold unpack
  refine (Outcome.Refines.liftChecked s.assert_refines).bind fun _ => ?_
  refine (Outcome.Refines.lift (s.requireBuffers_refines _ _ _)).bind fun _ => ?_
  refine Outcome.Refines.bind (.refl _) fun block => ?_
  refine Outcome.Refines.bind (.refl _) fun _ => ?_
  refine (Outcome.Refines.liftChecked (s.left.rows_refines s.grid left)).bind fun rows => ?_
  refine (Outcome.Refines.liftChecked (s.right.rows_refines s.grid right)).bind fun rows' => ?_
  refine .ite (fun _ => .refl _) fun _ => ?_
  refine Outcome.Refines.bind (.refl _) fun carved => ?_
  refine (Outcome.Refines.run level .unpack ?_).bind fun merged => .refl _
  exact .mapM (fun piece => piece.merge_refines h) _

end Slabs

end

/-! ## Exchanges -/

section

variable [Encoding W E] {op op' : Transfer V E}

theorem isIdle_refines (outgoing incoming : Slabs) :
    Checked.Refines (isIdle .debug outgoing incoming) (isIdle .release outgoing incoming) := by
  unfold isIdle
  exact outgoing.isEmpty_refines.bind fun empty =>
    .ite (fun _ => incoming.isEmpty_refines) fun _ => .refl _

theorem messageLength_refines (width : Nat) (box : Box) :
    Checked.Refines (messageLength .debug width box) (messageLength .release width box) := by
  unfold messageLength
  refine box.size_refines.bind fun n => ?_
  exact (Build.word_refines _).bind fun length => .refl _

theorem bufferSize_refines (width : Nat) (box : Box) :
    Checked.Refines (bufferSize .debug width box) (bufferSize .release width box) :=
  box.size_refines.bind fun _ => .refl _

theorem Encoding.decodeAll_refines (neighbour : Nat) (letters : List W) (n : Nat) :
    Fallible.Refines (decodeAll .debug neighbour letters n : Fallible (List E))
      (decodeAll .release neighbour letters n) := by
  unfold decodeAll requireValues
  refine RefinesUnless.bind ?_ fun _ => .refl _
  exact (Fallible.Refines.lift (Build.word_refines _)).bind fun length => .refl _

theorem exchange_refines (level : Level) (e : Executor) (requested : Nat) (h : op.Refines op')
    (neighbours : Neighbours) (tag : Tag) (outgoing incoming : Slabs) (cells : Array V) :
    Task.Refines (exchange ⟨.debug, level⟩ e requested op neighbours tag outgoing incoming cells :
        Task W (Array V))
      (exchange ⟨.release, level⟩ e requested op' neighbours tag outgoing incoming cells) := by
  unfold exchange
  refine (Task.Refines.liftChecked (isIdle_refines _ _)).bind fun idle => ?_
  refine .ite (fun _ => .refl _) fun _ => ?_
  refine (Task.Refines.liftChecked (bufferSize_refines _ _)).bind fun left => ?_
  refine (Task.Refines.liftChecked (bufferSize_refines _ _)).bind fun right => ?_
  refine (Task.Refines.lift
    (outgoing.packed_refines level e requested h cells left right)).bind fun packed => ?_
  refine (Task.Refines.liftChecked (messageLength_refines _ _)).bind fun fromRight => ?_
  refine (Task.Refines.liftChecked (messageLength_refines _ _)).bind fun fromLeft => ?_
  refine Task.Refines.bind (.refl _) fun rightReceive => ?_
  refine Task.Refines.bind (.refl _) fun leftReceive => ?_
  refine Task.Refines.bind (.refl _) fun _ => ?_
  refine Task.Refines.bind (.refl _) fun _ => ?_
  refine Task.Refines.bind (.refl _) fun rightMessage => ?_
  refine Task.Refines.bind (.refl _) fun leftMessage => ?_
  refine (Task.Refines.liftChecked incoming.right.size_refines).bind fun n => ?_
  refine (Task.Refines.liftFallible (Encoding.decodeAll_refines _ _ _)).bind fun rightIn => ?_
  refine (Task.Refines.liftChecked incoming.left.size_refines).bind fun n => ?_
  refine (Task.Refines.liftFallible (Encoding.decodeAll_refines _ _ _)).bind fun leftIn => ?_
  exact .lift (incoming.unpack_refines level e requested h cells leftIn rightIn)

theorem Flow.outgoing_refines (t : Topology) (a : Axis) (flow : Flow) :
    Checked.Refines (flow.outgoing .debug t a) (flow.outgoing .release t a) := by
  cases flow with
  | refresh => exact t.boundarySlabs_refines a
  | fold => exact t.ghostSlabs_refines a

theorem Flow.incoming_refines (t : Topology) (a : Axis) (flow : Flow) :
    Checked.Refines (flow.incoming .debug t a) (flow.incoming .release t a) := by
  cases flow with
  | refresh => exact t.ghostSlabs_refines a
  | fold => exact t.boundarySlabs_refines a

theorem exchangeAxis_refines (level : Level) (e : Executor) (requested : Nat) (h : op.Refines op')
    (flow : Flow) (t : Topology) (a : Axis) (neighbours : Neighbours) (tag : Tag)
    (cells : Array V) :
    Task.Refines (exchangeAxis ⟨.debug, level⟩ e requested op flow t a neighbours tag cells :
        Task W (Array V))
      (exchangeAxis ⟨.release, level⟩ e requested op' flow t a neighbours tag cells) := by
  refine .ite (fun _ => ?_) fun _ => .refl _
  refine (Task.Refines.liftChecked (flow.outgoing_refines t a)).bind fun outgoing => ?_
  refine (Task.Refines.liftChecked (flow.incoming_refines t a)).bind fun incoming => ?_
  exact exchange_refines level e requested h neighbours tag outgoing incoming cells

end

end KineticGrid
