import KineticGrid.Proofs.Message.Gathering
import KineticGrid.Proofs.Message.Progress
import KineticGrid.Proofs.Message.Tally
import KineticGrid.Proofs.Sweep.Summing
/-!
# Sums in rounds

Ranks that sum up over all ranks again and again, at their own pace. Main statements: with tags that
change from each round to the next, all ranks arrive at the same sums in every run; with a tag that
is used again, they do in every orderly run, while in others a rank takes the totals of a later
round for those of an earlier one, and waits for ever.
-/

namespace KineticGrid

variable {W : Type} [Letter W]

/-- The sums of several rounds, each with a tag and totals of its own. -/
def allSums (m : Mode) (rank ranks rounds : Nat) (tag : Nat → Tag)
    (own : Nat → Totals Binary64) : Task W (List (Totals Binary64)) :=
  (List.range rounds).mapM fun r => allSum m rank ranks (tag r) (own r)

def sumWorld (W : Type) [Letter W] (m : Mode) (n rounds : Nat) (tag : Nat → Tag)
    (totals : Nat → Nat → Totals Binary64) : World W (Outcome (List (Totals Binary64))) :=
  .launch n fun i => allSums m i n rounds tag fun r => totals r i

def sumPhase (W : Type) [Letter W] (n : Nat) (tag : Tag) (totals : Nat → Totals Binary64) :
    Phase W :=
  gatherPhase n tag (Encoding.width W (Totals Binary64)) fun i => Encoding.encode (totals i)

def sumPhases (W : Type) [Letter W] (n rounds : Nat) (tag : Nat → Tag)
    (totals : Nat → Nat → Totals Binary64) : List (Phase W) :=
  (List.range rounds).map fun r => sumPhase W n (tag r) (totals r)

/-- The totals of all ranks together, in the order of the ranks. -/
def rankSum (n : Nat) (totals : Nat → Totals Binary64) : Totals Binary64 :=
  Totals.total ((List.range n).map totals)

section

variable {n rounds : Nat} {tag : Nat → Tag} {totals : Nat → Nat → Totals Binary64}

theorem valid_sumPhases : ∀ p ∈ sumPhases W n rounds tag totals, p.Valid n := by
  intro p hp
  obtain ⟨r, _, rfl⟩ := List.mem_map.1 hp
  exact gatherPhase_valid

/-- Between two rounds with one tag there is a round with another one, in which every rank hears
from every other rank. -/
theorem spaced_sumPhases (htag : 2 ≤ n → ∀ r, r + 1 < rounds → tag r ≠ tag (r + 1)) :
    Spaced (sumPhases W n rounds tag totals) := by
  have hround {r : Nat} {p : Phase W} (hp : (sumPhases W n rounds tag totals)[r]? = some p) :
      r < rounds ∧ p = sumPhase W n (tag r) (totals r) := by
    rw [sumPhases, List.getElem?_map, Option.map_eq_some_iff] at hp
    obtain ⟨r', hr, rfl⟩ := hp
    obtain ⟨hlt, heq⟩ := List.getElem?_eq_some_iff.1 hr
    rw [List.length_range] at hlt
    rw [List.getElem_range] at heq
    exact ⟨hlt, by rw [heq]⟩
  intro k j p q a hkj hp hq huses huses'
  obtain ⟨hk, rfl⟩ := hround hp
  obtain ⟨hj, rfl⟩ := hround hq
  obtain ⟨hsource, htarget, hne, hk'⟩ := uses_gatherPhase_iff.1 huses
  have hj' := tag_of_uses_gatherPhase huses'
  have hgap : k + 1 < j := by
    have hnext : k + 1 ≠ j := by
      rintro rfl
      exact htag (by omega) k hj (hk'.symm.trans hj')
    omega
  refine ⟨k + 1, sumPhase W n (tag (k + 1)) (totals (k + 1)), tag (k + 1), by omega, hgap, ?_, ?_⟩
  · rw [sumPhases, List.getElem?_map, List.getElem?_range (by omega), Option.map_some]
  · exact uses_gatherPhase_iff.2 ⟨htarget, hsource, hne.symm, rfl⟩

/-- Whatever arrives, the events of a call that succeeds are those of its round. -/
theorem allSum_weighs {weight : Event W → Nat} (hweight : ∀ peer tag message message',
      weight (.took peer tag message) = weight (.took peer tag message')) (m : Mode) (tag : Tag)
    (round : Nat → Totals Binary64) {i : Nat} (hi : i < n) :
    (allSum m i n tag (round i) : Task W (Totals Binary64)).Weighs i weight (fun _ => True)
      ((((sumPhase W n tag round).script i).map weight).sum) := by
  have hpost (peer : Nat) : ((do return (peer, ← Task.post peer tag
      (Encoding.width W (Totals Binary64)))) : Task W (Nat × Receive W)).Weighs i weight
      (fun entry => (peer, .pending ⟨peer, i, tag⟩) = entry)
      (weight (.posted peer tag (Encoding.width W (Totals Binary64)))) := by
    rw [← Nat.add_zero (weight _)]
    exact (Task.weighs_post peer tag _).bind fun r hr => Task.weighs_pure (by rw [hr])
  have htake (peer : Nat) : (takeTotals m peer (.pending ⟨peer, i, tag⟩) :
      Task W (Totals Binary64)).Weighs i weight (fun _ => True) (weight (.took peer tag [])) := by
    rw [← Nat.add_zero (weight _)]
    exact (Task.weighs_take (fun message => hweight peer tag message []) _).bind fun _ _ =>
      .outcome_bind fun _ => Task.weighs_pure trivial
  let pending := (peers i n).map fun peer => (peer, (.pending ⟨peer, i, tag⟩ : Receive W))
  have htakes : (pending.mapM fun entry =>
      (takeTotals m entry.1 entry.2 : Task W (Totals Binary64))).Weighs i weight
      (fun received => List.Forall₂ (fun _ _ => True) pending received)
      ((pending.map fun entry => weight (.took entry.1 tag [])).sum) := by
    apply Task.weighs_mapM
    intro entry hentry
    obtain ⟨peer, _, rfl⟩ := List.mem_map.1 hentry
    exact htake peer
  have hscript : (((sumPhase W n tag round).script i).map weight).sum =
      ((peers i n).map fun peer =>
        weight (.posted peer tag (Encoding.width W (Totals Binary64)))).sum +
      (((peers i n).map fun peer => weight (.sent peer tag (Encoding.encode (round i)))).sum +
        ((pending.map fun entry => weight (.took entry.1 tag [])).sum + 0)) := by
    rw [sumPhase, script_gatherPhase hi, List.map_append, List.map_append, List.sum_append,
      List.sum_append, sum_map_flatMap, sum_map_flatMap, sum_map_flatMap]
    simp only [List.map_singleton, List.sum_singleton, List.map_map, pending, Nat.add_zero,
      Function.comp_def, hweight _ tag _ []]
  rw [allSum, if_neg (by omega), hscript]
  refine (Task.weighs_mapM fun peer _ => hpost peer).bind fun posted hposted => ?_
  obtain rfl : pending = posted := by
    rw [← List.forall₂_eq_eq_eq]
    exact List.forall₂_map_left_iff.2 hposted
  refine (Task.weighs_forM fun peer _ => Task.weighs_send peer tag _).bind fun _ _ => ?_
  refine htakes.bind fun received _ => ?_
  exact .outcome_bind fun _ => Task.weighs_outcome fun _ _ => trivial

theorem allSums_weighs {weight : Event W → Nat} (hweight : ∀ peer tag message message',
      weight (.took peer tag message) = weight (.took peer tag message')) (m : Mode) {i : Nat}
    (hi : i < n) : (allSums m i n rounds tag fun r => totals r i :
      Task W (List (Totals Binary64))).Weighs i weight (fun _ => True)
        (((phaseScripts (sumPhases W n rounds tag totals) i).map weight).sum) := by
  rw [phaseScripts, sumPhases, List.flatMap_map, sum_map_flatMap]
  exact (Task.weighs_mapM fun r _ => allSum_weighs hweight m (tag r) (totals r) hi).mono
    fun _ _ => trivial

variable [LawfulLetter W] {m : Mode}

theorem allSum_gives_rankSum (round : Nat → Totals Binary64)
    (hcount : m.build = .debug → validCells ((List.range n).map round) < wordSize) (tag : Tag)
    {i : Nat} (hi : i < n) : (allSum m i n tag (round i) : Task W (Totals Binary64)).Gives i
      ((sumPhase W n tag round).script i) (rankSum n round) :=
  allSum_gives m tag round (show (48 : Nat) < wordSize by decide) (Totals.sum_eq m.build hcount) hi

theorem allSums_gives (hcount : m.build = .debug → ∀ r < rounds,
      validCells ((List.range n).map (totals r)) < wordSize) {i : Nat} (hi : i < n) :
    (allSums m i n rounds tag fun r => totals r i : Task W (List (Totals Binary64))).Gives i
      (phaseScripts (sumPhases W n rounds tag totals) i)
      ((List.range rounds).map fun r => rankSum n (totals r)) := by
  rw [phaseScripts, sumPhases, List.flatMap_map]
  exact Task.gives_mapM fun r hr =>
    allSum_gives_rankSum (totals r) (fun hb => hcount hb r (List.mem_range.1 hr)) (tag r) hi

end

/-! ## Runs -/

/-- All ranks agree on the sums: each of them keeps to the messages of the rounds, with which each
of its calls gives the sum of its round; it ends with the sums of all rounds; and the ranks come to
no other halt than this one, with no message left. -/
structure SumsAgree (m : Mode) (n rounds : Nat) (tag : Nat → Tag)
    (totals : Nat → Nat → Totals Binary64) (history : List (Nat × Event W))
    (w : World W (Outcome (List (Totals Binary64)))) : Prop where
  script : ∀ i, past history i <+: phaseScripts (sumPhases W n rounds tag totals) i
  round : ∀ i < n, ∀ r < rounds, (allSum m i n (tag r) (totals r i) :
    Task W (Totals Binary64)).Gives i ((sumPhase W n (tag r) (totals r)).script i)
      (rankSum n (totals r))
  result : ∀ i < n, ∀ a, w.Done i a →
    a.result = .ok ((List.range rounds).map fun r => rankSum n (totals r))
  done_of_stuck : w.Stuck → ∀ i < n, ∃ a, w.Done i a
  empty_of_done : (∀ i < n, ∃ a, w.Done i a) → w.mailbox = .empty

section

variable {m : Mode} {n rounds : Nat} {tag : Nat → Tag} {totals : Nat → Nat → Totals Binary64}
  {history : List (Nat × Event W)} {w : World W (Outcome (List (Totals Binary64)))}

/-- A run in which all calls succeed is orderly: a message that was replaced would be missing. -/
theorem orderly_of_done (run : (sumWorld W m n rounds tag totals).Run history w)
    (hdone : ∀ i < n, ∃ x sums, w.Done i x ∧ x.result = .ok sums) : Orderly history := by
  intro a
  have hmatched : Scripts.Matched n (phaseScripts (sumPhases W n rounds tag totals)) :=
    matched_phaseScripts valid_sumPhases
  have hweighed (weight : Event W → Nat) (hweight : ∀ peer tag message message',
      weight (.took peer tag message) = weight (.took peer tag message')) :=
    World.Run.weighed (fun i hi => allSums_weighs hweight m hi) run
  have hcount (weight : Event W → Nat) (hweight : ∀ peer tag message message',
      weight (.took peer tag message) = weight (.took peer tag message')) (i : Nat) :
      ((past history i).map weight).sum =
        ((phaseScripts (sumPhases W n rounds tag totals) i).map weight).sum := by
    by_cases hi : i < n
    · obtain ⟨x, sums, hx, hsums⟩ := hdone i hi
      exact (hweighed weight hweight).of_done hi hx hsums
    · rw [(hweighed weight hweight).idle i (by omega), hmatched.outside i (by omega)]
  have hsent := hcount (fun e => (e.sentInto? a).toList.length) (fun _ _ _ _ => rfl) a.source
  have htook := hcount (fun e => (e.tookFrom? a).toList.length) (fun peer tag _ _ => by
    unfold Event.tookFrom?
    by_cases h : peer = a.source ∧ tag = a.tag <;> simp [h]) a.target
  rw [← length_filterMap_eq_sum, ← length_filterMap_eq_sum] at hsent htook
  have hbalanced := congrArg List.length (hmatched.balanced a)
  have hadmits := (hweighed (fun _ => 0) fun _ _ _ _ => rfl).admits
  apply (hadmits.count a).2
  unfold sentInto tookFrom at hbalanced ⊢
  omega

variable [LawfulLetter W]

theorem exists_follows_allSums (W : Type) [Letter W] [LawfulLetter W] (m : Mode) (n rounds : Nat)
    (tag : Nat → Tag) (totals : Nat → Nat → Totals Binary64) (hcount : m.build = .debug →
      ∀ r < rounds, validCells ((List.range n).map (totals r)) < wordSize) :
    ∃ logs : Nat → List Record, ∀ i < n, Program.Follows i
      (allSums m i n rounds tag fun r => totals r i : Task W (List (Totals Binary64)))
      (phaseScripts (sumPhases W n rounds tag totals) i)
      (⟨logs i, .ok ((List.range rounds).map fun r => rankSum n (totals r))⟩ :
        Outcome (List (Totals Binary64))) := by
  have hgives (i : Nat) (hi : i < n) : (allSums m i n rounds tag fun r => totals r i :
      Task W (List (Totals Binary64))).Gives i (phaseScripts (sumPhases W n rounds tag totals) i)
      ((List.range rounds).map fun r => rankSum n (totals r)) := allSums_gives hcount hi
  choose! logs hlogs using hgives
  exact ⟨logs, hlogs⟩

/-- In an orderly run the ranks agree, whatever their tags are. -/
theorem sumsAgree_of_orderly (hcount : m.build = .debug → ∀ r < rounds,
      validCells ((List.range n).map (totals r)) < wordSize)
    (run : (sumWorld W m n rounds tag totals).Run history w) (horderly : Orderly history) :
    SumsAgree m n rounds tag totals history w := by
  obtain ⟨logs, hfollows⟩ := exists_follows_allSums W m n rounds tag totals hcount
  have hmatched : Scripts.Matched n (phaseScripts (sumPhases W n rounds tag totals)) :=
    matched_phaseScripts valid_sumPhases
  have halong := run.along_of_orderly hmatched hfollows horderly
  refine ⟨halong.possible.isPrefix, fun i hi r hr => ?_, fun i hi a hdone => ?_,
    fun hstuck i hi => ?_, fun hdone => ?_⟩
  · exact allSum_gives_rankSum (totals r) (fun hb => hcount hb r hr) (tag r) hi
  · rw [halong.eq_of_done hi hdone]
  · exact ⟨_, halong.done hi (halong.end_of_stuck hmatched hstuck hi)⟩
  · apply halong.empty_of_end hmatched
    intro i hi
    obtain ⟨a, ha⟩ := hdone i hi
    exact halong.eq_scripts_of_done hi ha

/-- Where the tag changes from each round to the next, or nobody else is there, every run is
orderly. -/
theorem orderly_of_tags (hcount : m.build = .debug → ∀ r < rounds,
      validCells ((List.range n).map (totals r)) < wordSize)
    (htag : 2 ≤ n → ∀ r, r + 1 < rounds → tag r ≠ tag (r + 1))
    (run : (sumWorld W m n rounds tag totals).Run history w) : Orderly history := by
  obtain ⟨logs, hfollows⟩ := exists_follows_allSums W m n rounds tag totals hcount
  exact run.orderly (sound_phaseScripts valid_sumPhases (spaced_sumPhases htag)) hfollows

/-- The sums over all ranks agree, however far apart the ranks are. With a tag of its own for every
round, in every run of any number of ranks, what a rank sends finds its slot empty, and all ranks
end each round with the sum of its totals in the order of the ranks, in which the valid cells are
counted modulo the size of a word. -/
theorem allSums_agree (m : Mode) (htag : ∀ r < rounds, ∀ r' < rounds, tag r = tag r' → r = r')
    (hcount : m.build = .debug → ∀ r < rounds,
      validCells ((List.range n).map (totals r)) < wordSize)
    (run : (sumWorld W m n rounds tag totals).Run history w) :
    (∀ i peer tag' letters, w.event? i = some (.sent peer tag' letters) →
      w.mailbox.get? ⟨i, peer, tag'⟩ = none) ∧
    SumsAgree m n rounds tag totals history w ∧
    ∀ r < rounds, (rankSum n (totals r)).valid.toNat =
      validCells ((List.range n).map (totals r)) % wordSize := by
  have htags (r : Nat) (hr : r + 1 < rounds) : tag r ≠ tag (r + 1) := fun heq => by
    have hsame := htag r (by omega) (r + 1) hr heq
    omega
  obtain ⟨logs, hfollows⟩ := exists_follows_allSums W m n rounds tag totals hcount
  have hsound : Scripts.Sound n (phaseScripts (sumPhases W n rounds tag totals)) :=
    sound_phaseScripts valid_sumPhases (spaced_sumPhases fun _ => htags)
  refine ⟨fun _ _ _ _ => run.get?_of_event hsound hfollows, ?_, fun r _ => ?_⟩
  · exact sumsAgree_of_orderly hcount run (run.orderly hsound hfollows)
  · exact Totals.toNat_valid_total _

end

def counted (n : Nat) : Totals Binary64 := { Totals.zero with valid := .ofNat n }

theorem allSums_agree_three : ∃ (history : List (Nat × Event UInt8)) (w : World UInt8 _),
    (sumWorld UInt8 ⟨.debug, .off⟩ 3 2 (fun r => ⟨.ofNat r⟩)
      fun r i => counted (10 ^ r * (i + 1))).Run history w ∧ w.mailbox = .empty ∧
      ∀ i < 3, ∃ a sums, w.Done i a ∧ a.result = .ok sums ∧
        sums.map (fun t => t.valid) = [6, 60] := by
  obtain ⟨logs, hfollows⟩ := exists_follows_allSums UInt8 ⟨.debug, .off⟩ 3 2 (fun r => ⟨.ofNat r⟩)
    (fun r i => counted (10 ^ r * (i + 1))) (by decide)
  have htags (r : Nat) (hr : r + 1 < 2) : (⟨.ofNat r⟩ : Tag) ≠ ⟨.ofNat (r + 1)⟩ := by
    obtain rfl : r = 0 := by omega
    decide
  have hsound : Scripts.Sound 3 (phaseScripts (sumPhases UInt8 3 2 (fun r => ⟨.ofNat r⟩)
      fun r i => counted (10 ^ r * (i + 1)))) :=
    sound_phaseScripts valid_sumPhases (spaced_sumPhases fun _ => htags)
  obtain ⟨history, w, run, hstuck⟩ := World.Run.exists_stuck hsound hfollows .start
  obtain ⟨_, hagree, _⟩ := allSums_agree ⟨.debug, .off⟩ (by decide) (by decide) run
  have hdone := hagree.done_of_stuck hstuck
  refine ⟨_, w, run, hagree.empty_of_done hdone, fun i hi => ?_⟩
  obtain ⟨a, ha⟩ := hdone i hi
  exact ⟨a, _, ha, hagree.result i hi a ha, by decide⟩

section

variable [LawfulLetter W] {history : List (Nat × Event W)}
  {w : World W (Outcome (List (Totals Binary64)))}

/-- With a tag that is used again the sums agree in every orderly run: if no message is sent before
the ones before it in its slot were taken, all ranks end each round with its sum and none of them
waits for ever. Every run in which all calls succeed is orderly, and so is every run at all if no
two successive rounds have the same tag or there is no other rank. -/
theorem allSums_agree_of_orderly (m : Mode) (n rounds : Nat) (tag : Nat → Tag)
    (totals : Nat → Nat → Totals Binary64) (hcount : m.build = .debug → ∀ r < rounds,
      validCells ((List.range n).map (totals r)) < wordSize)
    (run : (sumWorld W m n rounds tag totals).Run history w) :
    (Orderly history → SumsAgree m n rounds tag totals history w) ∧
    ((∀ i < n, ∃ x sums, w.Done i x ∧ x.result = .ok sums) → Orderly history) ∧
    ((2 ≤ n → ∀ r, r + 1 < rounds → tag r ≠ tag (r + 1)) → Orderly history) :=
  ⟨sumsAgree_of_orderly hcount run, orderly_of_done run,
    fun htag => orderly_of_tags hcount htag run⟩

end

/-! ## Two ranks that use a tag twice -/

def twice (r i : Nat) : Totals Binary64 := counted (2 ^ (r + 2 * i))

def firstEvents (tag : Tag) (own other : Totals Binary64) : List (Event UInt8) :=
  [.posted 1 tag 48, .sent 1 tag (Encoding.encode own), .took 1 tag (Encoding.encode other)]

def secondEvents (tag : Tag) (own other : Totals Binary64) : List (Event UInt8) :=
  [.posted 0 tag 48, .sent 0 tag (Encoding.encode own), .took 0 tag (Encoding.encode other)]

def calmOrder (tag : Tag) : List (Nat × Event UInt8) :=
  (List.range 2).flatMap fun r =>
    [(0, .posted 1 tag 48), (0, .sent 1 tag (Encoding.encode (twice r 0))),
      (1, .posted 0 tag 48), (1, .sent 0 tag (Encoding.encode (twice r 1))),
      (1, .took 0 tag (Encoding.encode (twice r 0))),
      (0, .took 1 tag (Encoding.encode (twice r 1)))]

theorem admits_calmOrder : Mailbox.Admits (calmOrder ⟨7⟩) .empty :=
  .concat (.concat (.concat (.concat (.concat (.concat (.concat (.concat (.concat (.concat (.concat
    (.concat .nil (.posted _ _ _)) (.sent _ _ _)) (.posted _ _ _)) (.sent _ _ _)) (.took rfl))
    (.took rfl)) (.posted _ _ _)) (.sent _ _ _)) (.posted _ _ _)) (.sent _ _ _)) (.took rfl))
    (.took rfl)

theorem allSums_agree_of_orderly_calm : ∃ (history : List (Nat × Event UInt8)) (w : World UInt8 _),
    (sumWorld UInt8 ⟨.debug, .off⟩ 2 2 (fun _ => ⟨7⟩) twice).Run history w ∧ Orderly history ∧
      ∀ i < 2, ∃ a sums, w.Done i a ∧ a.result = .ok sums ∧
        sums.map (fun t => t.valid) = [5, 10] := by
  obtain ⟨logs, hfollows⟩ :=
    exists_follows_allSums UInt8 ⟨.debug, .off⟩ 2 2 (fun _ => ⟨7⟩) twice (by decide)
  have hend (i : Nat) (hi : i < 2) : past (calmOrder ⟨7⟩) i =
      phaseScripts (sumPhases UInt8 2 2 (fun _ => ⟨7⟩) twice) i := by
    obtain rfl | rfl : i = 0 ∨ i = 1 := by omega
    · rfl
    · rfl
  have hmatched : Scripts.Matched 2 (phaseScripts (sumPhases UInt8 2 2 (fun _ => ⟨7⟩) twice)) :=
    matched_phaseScripts valid_sumPhases
  obtain ⟨w, run, _, hreaches⟩ := World.exists_run hfollows hmatched.outside admits_calmOrder
    fun i => by
      by_cases hi : i < 2
      · rw [hend i hi]
      · rw [past_eq_nil (n := 2) (by decide) (by omega)]
        exact List.nil_prefix
  have hdone (i : Nat) (hi : i < 2) := hreaches.done hi (hend i hi)
  obtain ⟨_, horderly, _⟩ := allSums_agree_of_orderly ⟨.debug, .off⟩ 2 2 (fun _ => ⟨7⟩) twice
    (by decide) run
  exact ⟨_, w, run, horderly fun i hi => ⟨_, _, hdone i hi, rfl⟩,
    fun i hi => ⟨_, _, hdone i hi, rfl, by decide⟩⟩

/-- The first rank sends its totals of the second round before the second rank took those of the
first round. -/
def hastyOrder (tag : Tag) : List (Nat × Event UInt8) :=
  [(0, .posted 1 tag 48), (0, .sent 1 tag (Encoding.encode (twice 0 0))),
    (1, .posted 0 tag 48), (1, .sent 0 tag (Encoding.encode (twice 0 1))),
    (0, .took 1 tag (Encoding.encode (twice 0 1))),
    (0, .posted 1 tag 48), (0, .sent 1 tag (Encoding.encode (twice 1 0))),
    (1, .took 0 tag (Encoding.encode (twice 1 0))),
    (1, .posted 0 tag 48), (1, .sent 0 tag (Encoding.encode (twice 1 1))),
    (0, .took 1 tag (Encoding.encode (twice 1 1)))]

/-- The totals of the two rounds as the second rank takes them: what the first rank sends in the
second round arrives in the first one. -/
def seenTotals (r i : Nat) : Totals Binary64 := if i = 0 then twice 1 0 else twice r i

def hastyScripts (tag : Tag) : Scripts UInt8
  | 0 => firstEvents tag (twice 0 0) (twice 0 1) ++ firstEvents tag (twice 1 0) (twice 1 1)
  | 1 =>
      secondEvents tag (twice 0 1) (seenTotals 0 0) ++
        secondEvents tag (twice 1 1) (seenTotals 1 0)
  | _ => []

theorem admits_hastyOrder : Mailbox.Admits (hastyOrder ⟨7⟩) .empty :=
  .concat (.concat (.concat (.concat (.concat (.concat (.concat (.concat (.concat (.concat (.concat
    .nil (.posted _ _ _)) (.sent _ _ _)) (.posted _ _ _)) (.sent _ _ _)) (.took rfl))
    (.posted _ _ _)) (.sent _ _ _)) (.took rfl)) (.posted _ _ _)) (.sent _ _ _)) (.took rfl)

/-- The sums of ranks that use one tag twice do not agree in every run: here the second rank takes
the totals of the second round for those of the first one, with which its first call gives a wrong
sum, and then waits for ever for totals that were replaced. -/
theorem sums_disagree_hasty : ∃ (history : List (Nat × Event UInt8)) (w : World UInt8 _),
    (sumWorld UInt8 ⟨.release, .off⟩ 2 2 (fun _ => ⟨7⟩) twice).Run history w ∧ w.Stuck ∧
      (∀ a, ¬w.Done 1 a) ∧
      ∃ first later wrong, past history 1 = first ++ later ∧
        (allSum ⟨.release, .off⟩ 1 2 ⟨7⟩ (twice 0 1) : Task UInt8 (Totals Binary64)).Gives 1 first
          wrong ∧ wrong.valid = 6 ∧ (rankSum 2 (twice 0)).valid = 5 := by
  obtain ⟨logs, hfirst⟩ :=
    exists_follows_allSums UInt8 ⟨.release, .off⟩ 2 2 (fun _ => ⟨7⟩) twice (by decide)
  obtain ⟨logs', hsecond⟩ :=
    exists_follows_allSums UInt8 ⟨.release, .off⟩ 2 2 (fun _ => ⟨7⟩) seenTotals (by decide)
  have hend : past (hastyOrder ⟨7⟩) 0 = hastyScripts ⟨7⟩ 0 := rfl
  have hlate : past (hastyOrder ⟨7⟩) 1 = secondEvents ⟨7⟩ (twice 0 1) (seenTotals 0 0) ++
      [.posted 0 ⟨7⟩ 48, .sent 0 ⟨7⟩ (Encoding.encode (twice 1 1))] := rfl
  have hnext : past (hastyOrder ⟨7⟩) 1 ++
      [.took 0 ⟨7⟩ (Encoding.encode (seenTotals 1 0))] <+: hastyScripts ⟨7⟩ 1 := List.prefix_refl _
  have houtside (i : Nat) (hi : 2 ≤ i) : hastyScripts ⟨7⟩ i = [] := by
    obtain ⟨k, rfl⟩ := Nat.exists_eq_add_of_le' hi
    rfl
  have hkeeps (i : Nat) : past (hastyOrder ⟨7⟩) i <+: hastyScripts ⟨7⟩ i := by
    obtain rfl | rfl | hi : i = 0 ∨ i = 1 ∨ 2 ≤ i := by omega
    · rw [hend]
    · exact (List.prefix_append _ _).trans hnext
    · rw [past_eq_nil (n := 2) (by decide) hi]
      exact List.nil_prefix
  have hfollows (i : Nat) (hi : i < 2) : Program.Follows i
      (allSums ⟨.release, .off⟩ i 2 2 (fun _ => ⟨7⟩) fun r => twice r i : Task UInt8 _)
      (hastyScripts ⟨7⟩ i)
      (if i = 0 then ⟨logs 0, .ok ((List.range 2).map fun r => rankSum 2 (twice r))⟩
        else ⟨logs' 1, .ok ((List.range 2).map fun r => rankSum 2 (seenTotals r))⟩) := by
    obtain rfl | rfl : i = 0 ∨ i = 1 := by omega
    · exact hfirst 0 hi
    · exact hsecond 1 hi
  obtain ⟨w, run, hbox, hreaches⟩ := World.exists_run hfollows houtside admits_hastyOrder hkeeps
  obtain ⟨hstuck, hwaits⟩ := hreaches.waits (by decide) hnext (by rw [hbox]; rfl)
  refine ⟨_, w, run, fun i => ?_, hwaits, _, _, rankSum 2 (seenTotals 0), hlate, ?_, by decide,
    by decide⟩
  · obtain rfl | rfl | hi : i = 0 ∨ i = 1 ∨ 2 ≤ i := by omega
    · exact World.act?_of_done (hreaches.done (by decide) hend)
    · exact hstuck
    · exact World.act?_of_le (by rw [hreaches.length_ranks]; exact hi)
  · exact allSum_gives_rankSum (seenTotals 0) (by decide) ⟨7⟩ (by decide)

end KineticGrid
