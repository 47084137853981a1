import KineticGrid.Document.Schema
import Mathlib.Data.List.Chain
/-!
# Spelling

A text spells a list of tokens if these stand in it one after the other, with any blanks between
them. Main statement: scanning such a text finds these tokens again, unless two numbers stand side
by side and could run together.
-/

namespace KineticGrid.Document

/-- A text spells some tokens. Blanks may stand before each of them and behind the last one. -/
inductive Spells : List Token → List Char → Prop where
  | done (gap : List Char) (hgap : gap.all isBlank = true) : Spells [] gap
  | token (gap : List Char) (hgap : gap.all isBlank = true) (t : Token)
      {rest : List Token} {text : List Char} (h : Spells rest text) :
      Spells (t :: rest) (gap ++ (t.text ++ text))

theorem spells_render (tokens : List Token) : Spells tokens (render tokens).toList := by
  rw [render, String.toList_ofList]
  induction tokens with
  | nil => exact .done [] rfl
  | cons t rest ih => exact .token [] rfl t ih

namespace Token

def isPlain (c : Char) : Bool := c ≠ '"' && c ≠ '\\' && 0x20 ≤ c.toNat

/-- Tokens that have one spelling: strings without escapes, and numbers without sign, fraction and
exponent. -/
def Plain : Token → Prop
  | .string raw => raw.all isPlain = true
  | .number raw => ∃ n, raw = Nat.toDigits 10 n
  | .bad => False
  | _ => True

def isNumber : Token → Bool
  | .number _ => true
  | _ => false

theorem Plain.of_cons {c : Char} {raw : List Char} (h : (string (c :: raw)).Plain) :
    (c ≠ '"' ∧ c ≠ '\\' ∧ 0x20 ≤ c.toNat) ∧ (string raw).Plain := by
  have hall : isPlain c = true ∧ raw.all isPlain = true := by
    simpa only [Plain, List.all_cons, Bool.and_eq_true] using h
  refine ⟨?_, hall.2⟩
  simpa only [isPlain, Bool.and_eq_true, decide_eq_true_eq, and_assoc] using hall.1

end Token

/-- Plain tokens of which no two numbers stand side by side. -/
structure Legible (tokens : List Token) : Prop where
  plain : ∀ t ∈ tokens, t.Plain
  apart : tokens.IsChain fun t u => t.isNumber = true → u.isNumber = false

namespace Legible

variable {t : Token} {tokens rest : List Token}

theorem nil : Legible [] := ⟨nofun, .nil⟩

theorem singleton (h : t.Plain) : Legible [t] :=
  ⟨fun _ hu => List.mem_singleton.1 hu ▸ h, .singleton t⟩

theorem append (h : Legible tokens) (hrest : Legible rest)
    (hnumber : ∀ u ∈ rest.head?, u.isNumber = false) : Legible (tokens ++ rest) := by
  refine ⟨fun t ht => ?_, List.isChain_append.2 ⟨h.apart, hrest.apart, fun _ _ _ hu _ => ?_⟩⟩
  · exact (List.mem_append.1 ht).elim (h.plain t) (hrest.plain t)
  · exact hnumber _ hu

theorem cons (h : Legible tokens) (ht : t.Plain) (hnumber : t.isNumber = false) :
    Legible (t :: tokens) := by
  refine ⟨List.forall_mem_cons.2 ⟨ht, h.plain⟩, List.isChain_cons.2 ⟨fun _ _ hother => ?_, h.apart⟩⟩
  rw [hnumber] at hother
  cases hother

end Legible

theorem legible_writeNat (n : Nat) : Legible (writeNat n) := .singleton ⟨n, rfl⟩

theorem legible_separated {items : List (List Token)} (h : ∀ item ∈ items, Legible item) :
    Legible (separated items) := by
  induction items with
  | nil => exact .nil
  | cons item items ih =>
      have hitem := h item List.mem_cons_self
      have hrest := ih fun other hother => h other (List.mem_cons_of_mem _ hother)
      cases items with
      | nil => exact hitem
      | cons next items =>
          refine hitem.append (hrest.cons (t := .comma) trivial rfl) fun u hu => ?_
          obtain rfl := Option.some.inj hu
          rfl

/-! ## Numbers -/

theorem exists_toDigits (n : Nat) :
    ∃ c digits, Nat.toDigits 10 n = c :: digits ∧ c.isDigit = true := by
  obtain ⟨c, digits, hdigits⟩ := List.exists_cons_of_ne_nil (l := Nat.toDigits 10 n)
    Nat.toDigits_ne_nil
  have hmem : c ∈ Nat.toDigits 10 n := hdigits ▸ List.mem_cons_self
  exact ⟨c, digits, hdigits, Nat.isDigit_of_mem_toDigits (by decide) (by decide) hmem⟩

/-- Only zero itself starts with a zero. -/
theorem head?_toDigits {n : Nat} (h : (Nat.toDigits 10 n).head? = some '0') :
    Nat.toDigits 10 n = ['0'] := by
  induction n using Nat.strongRecOn with
  | ind n ih =>
      by_cases hn : n < 10
      · rw [Nat.toDigits_of_lt_base hn] at h ⊢
        rw [Option.some.inj h]
      · have hle := Nat.not_lt.1 hn
        obtain ⟨c, digits, hdigits, _⟩ := exists_toDigits (n / 10)
        rw [Nat.toDigits_of_base_le (by decide) hle, hdigits] at h
        have hzero := ih (n / 10) (by omega) (by rw [hdigits]; exact h)
        have hvalue := Nat.ofDigitChars_toDigits (b := 10) (n := n / 10) (by decide) (by decide)
        rw [hzero] at hvalue
        have hsmall : 0 = n / 10 := hvalue
        omega

def continuesNumber (c : Char) : Bool := c.isDigit || c = '.' || c = 'e' || c = 'E'

theorem continuesNumber_of_isBlank {c : Char} (hc : isBlank c = true) :
    continuesNumber c = false := by
  simp only [isBlank, Bool.or_eq_true, decide_eq_true_eq] at hc
  rcases hc with ((rfl | rfl) | rfl) | rfl <;> rfl

theorem isBlank_of_isDigit {c : Char} (hc : c.isDigit = true) : isBlank c = false := by
  cases hblank : isBlank c with
  | false => rfl
  | true =>
      have hother := continuesNumber_of_isBlank hblank
      rw [continuesNumber, hc] at hother
      cases hother

/-- No number goes on in a text. -/
def Ends (text : List Char) : Prop := ∀ c ∈ text.head?, continuesNumber c = false

theorem Ends.head {c : Char} {text : List Char} (h : Ends (c :: text)) :
    c.isDigit = false ∧ c ≠ '.' ∧ c ≠ 'e' ∧ c ≠ 'E' := by
  have hc := h c rfl
  simpa only [continuesNumber, Bool.or_eq_false_iff, decide_eq_false_iff_not, and_assoc] using hc

theorem splitDigits_append {digits text : List Char} (hne : digits ≠ [])
    (hdigits : ∀ c ∈ digits, c.isDigit = true) (htext : Ends text) :
    splitDigits (digits ++ text) = some (digits, text) := by
  have htake : text.takeWhile Char.isDigit = [] := by
    cases text with
    | nil => rfl
    | cons c text => exact List.takeWhile_cons_of_neg (by rw [htext.head.1]; decide)
  have hdrop : text.dropWhile Char.isDigit = text := by
    cases text with
    | nil => rfl
    | cons c text => exact List.dropWhile_cons_of_neg (by rw [htext.head.1]; decide)
  rw [splitDigits, List.takeWhile_append_of_pos hdigits, List.dropWhile_append_of_pos hdigits,
    htake, hdrop, List.append_nil, if_neg hne]

theorem splitNumber_toDigits (n : Nat) {text : List Char} (htext : Ends text) :
    splitNumber (Nat.toDigits 10 n ++ text) = some (Nat.toDigits 10 n, text) := by
  have hdigits : splitDigits (Nat.toDigits 10 n ++ text) = some (Nat.toDigits 10 n, text) :=
    splitDigits_append Nat.toDigits_ne_nil
      (fun c hc => Nat.isDigit_of_mem_toDigits (by decide) (by decide) hc) htext
  have hwhole : splitWhole (Nat.toDigits 10 n ++ text) = some (Nat.toDigits 10 n, text) := by
    rw [splitWhole, hdigits]
    exact if_neg fun h => h.2 (head?_toDigits h.1)
  have hfraction : splitFraction text = some ([], text) := by
    cases text with
    | nil => rfl
    | cons c text =>
        unfold splitFraction
        split
        next heq => exact absurd (List.cons.inj heq).1 htext.head.2.1
        next => rfl
  have hexponent : splitExponent text = some ([], text) := by
    cases text with
    | nil => rfl
    | cons c text =>
        unfold splitExponent
        exact if_neg (not_or.2 htext.head.2.2)
  rw [splitNumber, hwhole]
  simp [hfraction, hexponent]

/-! ## Tokens -/

theorem splitString_append {raw : List Char} (h : (Token.string raw).Plain) (text : List Char) :
    splitString (raw ++ '"' :: text) = some (raw, text) := by
  induction raw with
  | nil => rfl
  | cons c raw ih =>
      obtain ⟨⟨hquote, hescape, hcontrol⟩, hraw⟩ := h.of_cons
      have hrest := ih hraw
      unfold splitString
      split
      next heq => cases heq
      next heq => exact absurd (List.cons.inj heq).1 hquote
      next heq => exact absurd (List.cons.inj heq).1 hescape
      next heq => exact absurd (List.cons.inj heq).1 hescape
      next heq =>
        obtain ⟨rfl, rfl⟩ := List.cons.inj heq
        have hplain : ¬(c = '\\' ∨ c.toNat < 0x20) := not_or.2 ⟨hescape, Nat.not_lt.2 hcontrol⟩
        rw [if_neg hplain]
        change (splitString (raw ++ '"' :: text)).map _ = _
        rw [hrest]
        rfl

theorem unescape_of_plain {raw : List Char} (h : (Token.string raw).Plain) :
    unescape raw = some raw := by
  induction raw with
  | nil => rfl
  | cons c raw ih =>
      obtain ⟨⟨_, hescape, _⟩, hraw⟩ := h.of_cons
      have hrest := ih hraw
      unfold unescape
      split
      next heq => cases heq
      next heq => exact absurd (List.cons.inj heq).1 hescape
      next heq => exact absurd (List.cons.inj heq).1 hescape
      next heq =>
        obtain ⟨rfl, rfl⟩ := List.cons.inj heq
        rw [hrest]
        rfl

theorem Token.next_of_isDigit {c : Char} (hc : c.isDigit = true) (rest : List Char) :
    Token.next c rest = (splitNumber (c :: rest)).map fun (raw, rest) => (.number raw, rest) := by
  unfold Token.next
  split
  all_goals first
    | rfl
    | exact absurd hc (by decide)

theorem Token.Plain.exists_next {t : Token} (ht : t.Plain) {text : List Char}
    (htext : t.isNumber = true → Ends text) :
    ∃ c rest, t.text = c :: rest ∧ isBlank c = false ∧
      Token.next c (rest ++ text) = some (t, text) := by
  cases t with
  | string raw =>
      refine ⟨'"', raw ++ ['"'], rfl, rfl, ?_⟩
      rw [Token.next, List.append_assoc, List.singleton_append, splitString_append ht]
      rfl
  | number raw =>
      obtain ⟨n, rfl⟩ := ht
      obtain ⟨c, digits, hdigits, hc⟩ := exists_toDigits n
      have hnumber := splitNumber_toDigits n (htext rfl)
      refine ⟨c, digits, hdigits, isBlank_of_isDigit hc, ?_⟩
      rw [Token.next_of_isDigit hc, ← List.cons_append, ← hdigits, hnumber]
      rfl
  | bad => cases ht
  | _ => exact ⟨_, _, rfl, rfl, rfl⟩

theorem Spells.ends {tokens : List Token} {text : List Char} (h : Spells tokens text)
    (hplain : ∀ t ∈ tokens, t.Plain) (hnumber : ∀ t ∈ tokens.head?, t.isNumber = false) :
    Ends text := by
  intro c hc
  cases h with
  | done _ hgap =>
      exact continuesNumber_of_isBlank (List.all_eq_true.1 hgap c (List.mem_of_mem_head? hc))
  | @token gap hgap t rest text h =>
      cases gap with
      | cons c' gap =>
          obtain rfl := Option.some.inj hc
          exact continuesNumber_of_isBlank (List.all_eq_true.1 hgap _ List.mem_cons_self)
      | nil =>
          have ht := hplain t List.mem_cons_self
          have hother := hnumber t rfl
          cases t with
          | number => cases hother
          | bad => cases ht
          | _ =>
              obtain rfl := Option.some.inj hc
              rfl

/-! ## Scanning -/

/-- Each token that is found takes at least one character, which pays for one step. -/
theorem scanFirst_of_spells {tokens : List Token} {text : List Char} (h : Spells tokens text)
    (hlegible : Legible tokens) {n : Nat} (hn : text.length ≤ n) : scanFirst n text = tokens := by
  induction h generalizing n with
  | @done gap hgap =>
      have hdrop : gap.dropWhile isBlank = [] := by
        have happend : (gap ++ []).dropWhile isBlank = [] :=
          List.dropWhile_append_of_pos (List.all_eq_true.1 hgap)
        rwa [List.append_nil] at happend
      cases n with
      | zero => rfl
      | succ n => rw [scanFirst, hdrop]
  | @token gap hgap t rest text h ih =>
      have hchain := List.isChain_cons.1 hlegible.apart
      have hplain := List.forall_mem_cons.1 hlegible.plain
      -- What comes behind a number is no number, so that the digits are not read past its end.
      have hends : t.isNumber = true → Ends text := fun ht =>
        h.ends hplain.2 fun u hu => hchain.1 u hu ht
      obtain ⟨c, after, htext, hc, hnext⟩ := hplain.1.exists_next hends
      have hdrop : (gap ++ (t.text ++ text)).dropWhile isBlank = c :: (after ++ text) := by
        rw [List.dropWhile_append_of_pos (List.all_eq_true.1 hgap), htext, List.cons_append,
          List.dropWhile_cons_of_neg (by rw [hc]; decide)]
      rw [List.length_append, List.length_append, htext, List.length_cons] at hn
      cases n with
      | zero => omega
      | succ n =>
          rw [scanFirst, hdrop]
          dsimp only
          rw [hnext]
          dsimp only
          rw [ih ⟨hplain.2, hchain.2⟩ (by omega)]

theorem scan_of_spells {tokens : List Token} {text : List Char} (h : Spells tokens text)
    (hlegible : Legible tokens) : scan text = tokens :=
  scanFirst_of_spells h hlegible (Nat.le_refl _)

end KineticGrid.Document
