import KineticGrid.Message.AllSum
import KineticGrid.Proofs.Message.Codec
import KineticGrid.Proofs.Message.Lockstep
/-!
# Gathering totals

Every rank sends its totals to every other one in a single phase. Main statement: each rank ends
with the sum of the totals of all ranks in the order of the ranks.
-/

namespace KineticGrid

variable {W A α β : Type}

/-! ## Peers -/

theorem mem_peers {i j n : Nat} : j ∈ peers i n ↔ j < n ∧ j ≠ i := by
  simp [peers]

theorem peers_eq {i n : Nat} (hi : i < n) :
    peers i n = List.range i ++ List.range' (i + 1) (n - (i + 1)) := by
  have hrange : List.range n = List.range i ++ i :: List.range' (i + 1) (n - (i + 1)) := by
    have happend := List.range'_append_1 (s := 0) (m := i) (n := n - (i + 1) + 1)
    rw [Nat.zero_add, show i + (n - (i + 1) + 1) = n by omega, List.range'_succ] at happend
    rw [List.range_eq_range', List.range_eq_range', happend]
  have hbefore : (List.range i).filter (· ≠ i) = List.range i := by
    rw [List.filter_eq_self]
    intro j hj
    exact decide_eq_true (Nat.ne_of_lt (List.mem_range.1 hj))
  have hbehind : (List.range' (i + 1) (n - (i + 1))).filter (· ≠ i) =
      List.range' (i + 1) (n - (i + 1)) := by
    rw [List.filter_eq_self]
    intro j hj
    have hle := (List.mem_range'_1.1 hj).1
    exact decide_eq_true (by omega)
  rw [peers, hrange, List.filter_append, hbefore, List.filter_cons_of_neg (by simp), hbehind]

theorem insert_peers {i n : Nat} (hi : i < n) (f : Nat → α) :
    ((peers i n).map f).take i ++ f i :: ((peers i n).map f).drop i = (List.range n).map f := by
  have hbefore : ((List.range i).map f).length = i := by rw [List.length_map, List.length_range]
  have happend := List.range'_append_1 (s := 0) (m := i) (n := n - (i + 1) + 1)
  rw [Nat.zero_add, show i + (n - (i + 1) + 1) = n by omega, List.range'_succ] at happend
  rw [peers_eq hi, List.map_append, List.take_left' hbefore, List.drop_left' hbefore,
    List.range_eq_range', List.range_eq_range', ← happend, List.map_append, List.map_cons]

/-! ## Tasks over a list -/

namespace Task

variable {i : Nat} {script : α → List (Event W)}

theorem gives_mapM {f : α → Task W β} {g : α → β} {items : List α}
    (h : ∀ a ∈ items, (f a).Gives i (script a) (g a)) :
    (items.mapM f).Gives i (items.flatMap script) (items.map g) := by
  have hloop (done : List β) : (List.mapM.loop f items done).Gives i (items.flatMap script)
      (done.reverse ++ items.map g) := by
    induction items generalizing done with
    | nil =>
        rw [List.map_nil, List.append_nil]
        exact gives_pure i _
    | cons a items ih =>
        have hrest := ih (fun b hb => h b (List.mem_cons_of_mem a hb)) (g a :: done)
        rw [List.reverse_cons, List.append_assoc] at hrest
        exact (h a List.mem_cons_self).bind hrest
  exact hloop []

theorem gives_forM {f : α → Task W Unit} {items : List α}
    (h : ∀ a ∈ items, (f a).Gives i (script a) ()) :
    (items.forM f).Gives i (items.flatMap script) () := by
  induction items with
  | nil => exact gives_pure i ()
  | cons a items ih =>
      exact (h a List.mem_cons_self).bind (ih fun b hb => h b (List.mem_cons_of_mem a hb))

end Task

/-! ## The phase -/

/-- Each rank sends one message to every other rank. -/
def gatherPhase (n : Nat) (tag : Tag) (length : Nat) (message : Nat → List W) : Phase W where
  posts i := if i < n then (peers i n).map fun peer => (peer, tag, length) else []
  sends i := if i < n then (peers i n).map fun peer => (peer, tag, message i) else []
  takes i := if i < n then (peers i n).map fun peer => (peer, tag, message peer) else []

section

variable {n : Nat} {tag : Tag} {length : Nat} {message : Nat → List W}

theorem script_gatherPhase {i : Nat} (hi : i < n) :
    (gatherPhase n tag length message).script i =
      (peers i n).flatMap (fun peer => [.posted peer tag length]) ++
        ((peers i n).flatMap (fun peer => [.sent peer tag (message i)]) ++
          (peers i n).flatMap fun peer => [.took peer tag (message peer)]) := by
  simp only [Phase.script, gatherPhase, if_pos hi, List.map_map, List.append_assoc,
    ← List.map_eq_flatMap]
  rfl

private theorem nodup_peers (i n : Nat) (tag : Tag) :
    ((peers i n).map fun peer => (peer, tag)).Nodup := by
  apply List.Nodup.map
  · intro peer peer' heq
    exact congrArg Prod.fst heq
  · exact List.nodup_range.filter _

theorem gatherPhase_valid : (gatherPhase n tag length message).Valid n where
  outside i hi := by
    simp [Phase.script, gatherPhase, Nat.not_lt.2 hi]
  sends_nodup i := by
    by_cases hi : i < n
    · simpa [gatherPhase, hi, Function.comp_def] using nodup_peers i n tag
    · simp [gatherPhase, hi]
  takes_nodup i := by
    by_cases hi : i < n
    · simpa [gatherPhase, hi, Function.comp_def] using nodup_peers i n tag
    · simp [gatherPhase, hi]
  matched i peer tag' letters := by
    have hout : (peer, tag', letters) ∈ (gatherPhase n tag length message).sends i ↔
        i < n ∧ peer < n ∧ peer ≠ i ∧ tag' = tag ∧ letters = message i := by
      by_cases hi : i < n
      · simp [gatherPhase, hi, mem_peers]
        tauto
      · simp [gatherPhase, hi]
    have hin : (i, tag', letters) ∈ (gatherPhase n tag length message).takes peer ↔
        peer < n ∧ i < n ∧ i ≠ peer ∧ tag' = tag ∧ letters = message i := by
      by_cases hpeer : peer < n
      · simp [gatherPhase, hpeer, mem_peers]
        tauto
      · simp [gatherPhase, hpeer]
    rw [hout, hin]
    constructor
    · rintro ⟨hi, hpeer, hne, htag, hletters⟩
      exact ⟨hpeer, hi, hne.symm, htag, hletters⟩
    · rintro ⟨hpeer, hi, hne, htag, hletters⟩
      exact ⟨hi, hpeer, hne.symm, htag, hletters⟩

theorem uses_gatherPhase_iff {a : Address} : (gatherPhase n tag length message).Uses a ↔
    a.source < n ∧ a.target < n ∧ a.target ≠ a.source ∧ a.tag = tag := by
  unfold Phase.Uses gatherPhase
  dsimp only
  by_cases hsource : a.source < n
  · simp only [if_pos hsource, List.mem_map, mem_peers, Prod.mk.injEq]
    constructor
    · rintro ⟨m, peer, ⟨hpeer, hne⟩, rfl, rfl, _⟩
      exact ⟨hsource, hpeer, hne, rfl⟩
    · rintro ⟨_, htarget, hne, rfl⟩
      exact ⟨message a.source, a.target, ⟨htarget, hne⟩, rfl, rfl, rfl⟩
  · simp [hsource]

theorem tag_of_uses_gatherPhase {a : Address} (h : (gatherPhase n tag length message).Uses a) :
    a.tag = tag :=
  (uses_gatherPhase_iff.1 h).2.2.2

end

/-! ## The sum -/

theorem allSum_gives [Letter W] [LawfulLetter W] [Arith A] [Encoding W A] [LawfulEncoding W A]
    (m : Mode) {n : Nat} (tag : Tag) (totals : Nat → Totals A)
    (hwidth : Encoding.width W (Totals A) < wordSize) {sum : Totals A}
    (hsum : Totals.sum m.build ((List.range n).map totals) = .ok sum) {i : Nat} (hi : i < n) :
    (allSum m i n tag (totals i) : Task W (Totals A)).Gives i
      ((gatherPhase n tag (Encoding.width W (Totals A)) fun i =>
        Encoding.encode (totals i)).script i) sum := by
  have htake (peer : Nat) : (takeTotals m peer (.pending ⟨peer, i, tag⟩) : Task W (Totals A)).Gives
      i [.took peer tag (Encoding.encode (totals peer))] (totals peer) := by
    have hdecode := Encoding.decodeAll_encodeAll (W := W) m.build peer [totals peer] (by
      rw [List.length_singleton, Nat.one_mul]
      exact hwidth)
    rw [Encoding.encodeAll, List.flatMap_singleton] at hdecode
    exact (Task.gives_take i peer tag _ _).bind
      (.fallible_bind hdecode (Task.gives_pure i _))
  rw [script_gatherPhase hi, allSum, if_neg (by omega)]
  refine .bind (Task.gives_mapM (g := fun peer => (peer, .pending ⟨peer, i, tag⟩))
    fun peer _ => ?_) ?_
  · exact (Task.gives_post i peer tag _).bind (Task.gives_pure i _)
  · refine .bind (Task.gives_forM fun peer _ => Task.gives_send i peer tag _) ?_
    let pending := (peers i n).map fun peer => (peer, (.pending ⟨peer, i, tag⟩ : Receive W))
    have htakes : (pending.mapM fun entry =>
        (takeTotals m entry.1 entry.2 : Task W (Totals A))).Gives i
        (pending.flatMap fun entry => [.took entry.1 tag (Encoding.encode (totals entry.1))])
        (pending.map fun entry => totals entry.1) := by
      apply Task.gives_mapM
      intro entry hentry
      obtain ⟨peer, _, rfl⟩ := List.mem_map.1 hentry
      exact htake peer
    have hall : (pending.map fun entry => totals entry.1).take i ++
        totals i :: (pending.map fun entry => totals entry.1).drop i =
          (List.range n).map totals := by
      rw [List.map_map]
      exact insert_peers hi totals
    rw [List.flatMap_map] at htakes
    rw [← List.append_nil (List.flatMap _ _)]
    refine .bind htakes (.outcome_bind rfl ?_)
    rw [hall]
    exact Task.gives_outcome i (by rw [hsum]; rfl)

end KineticGrid
