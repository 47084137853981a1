import KineticGrid.Proofs.Document.Spelling
/-!
# Reading

What readers do with the tokens that values are written as. Main statements: numbers are read back,
and the entries of an object are read one by one.
-/

namespace KineticGrid.Document

namespace Reader

variable {α β σ : Type} {x : Reader α} {f : α → Reader β} {t : Token} {tokens rest : List Token}

theorem bind_of_ok {a : α} (h : x tokens = .ok (a, rest)) : (x >>= f) tokens = f a rest := by
  change (x tokens >>= fun p => f p.1 p.2) = _
  rw [h]
  rfl

theorem bind_of_error {e : Refusal} (h : x tokens = .error e) : (x >>= f) tokens = .error e := by
  change (x tokens >>= fun p => f p.1 p.2) = _
  rw [h]
  rfl

theorem expect_cons (t : Token) (rest : List Token) : expect t (t :: rest) = .ok ((), rest) := by
  change (if t = t then (return () : Reader Unit) else fail) rest = _
  rw [if_pos rfl]
  rfl

theorem accept_of_ne {u : Token} (h : u ≠ t) (rest : List Token) :
    accept t (u :: rest) = .ok (false, u :: rest) := by
  rw [accept, if_neg h]

theorem string_name {name : String} (h : (writeName name).Plain) (rest : List Token) :
    string (writeName name :: rest) = .ok (name.toList, rest) := by
  rw [string, bind_of_ok (a := writeName name) rfl, writeName]
  dsimp only
  rw [unescape_of_plain h]
  rfl

theorem below_writeNat {n bound : Nat} (hn : n < bound) (rest : List Token) :
    below bound (writeNat n ++ rest) = .ok (n, rest) := by
  have hdigits : (Nat.toDigits 10 n).all Char.isDigit = true := by
    rw [List.all_eq_true]
    exact fun c hc => Nat.isDigit_of_mem_toDigits (by decide) (by decide) hc
  have hvalue : ofDigits (Nat.toDigits 10 n) = n :=
    Nat.ofDigitChars_toDigits (by decide) (by decide)
  have hnext : next (writeNat n ++ rest) = .ok (.number (Nat.toDigits 10 n), rest) := rfl
  rw [below, bind_of_ok hnext]
  dsimp only
  rw [hvalue, if_pos ⟨hdigits, hn⟩]
  rfl

theorem word32_writeNat (n : UInt32) (rest : List Token) :
    word32 (writeNat n.toNat ++ rest) = .ok (n, rest) := by
  rw [word32, bind_of_ok (below_writeNat n.toNat_lt rest), UInt32.ofNat_toNat]
  rfl

theorem word64_writeNat (n : UInt64) (rest : List Token) :
    word64 (writeNat n.toNat ++ rest) = .ok (n, rest) := by
  rw [word64, bind_of_ok (below_writeNat n.toNat_lt rest), UInt64.ofNat_toNat]
  rfl

theorem optional_word64 (n : UInt64) (rest : List Token) :
    optional word64 (writeNat n.toNat ++ rest) = .ok (some n, rest) := by
  have hnumber : accept .null (writeNat n.toNat ++ rest) = .ok (false, writeNat n.toNat ++ rest) :=
    accept_of_ne (t := .null) (u := .number (Nat.toDigits 10 n.toNat)) nofun rest
  rw [optional, bind_of_ok hnumber, if_neg Bool.false_ne_true, bind_of_ok (word64_writeNat n rest)]
  rfl

theorem entry_of_find {fields : List (RecordField σ)} {field : RecordField σ} {name : String}
    {s : σ} (hname : (writeName name).Plain)
    (hfind : fields.find? (fun field => field.name.toList = name.toList) = some field)
    (hset : field.isSet s = false) (tokens : List Token) :
    entry fields s (writeName name :: .colon :: tokens) = field.read s tokens := by
  rw [entry, bind_of_ok (string_name hname _), hfind]
  dsimp only
  rw [hset, if_neg Bool.false_ne_true, bind_of_ok (expect_cons .colon tokens)]

variable {fields : List (RecordField σ)} {s s' : σ} {n : Nat}

theorem entries_comma (h : entry fields s tokens = .ok (s', .comma :: rest)) :
    entries fields (n + 1) s tokens = entries fields n s' rest := by
  rw [entries, bind_of_ok h]
  rfl

theorem entries_closeBrace (h : entry fields s tokens = .ok (s', .closeBrace :: rest)) :
    entries fields (n + 1) s tokens = .ok (s', rest) := by
  rw [entries, bind_of_ok h]
  rfl

end Reader

/-! ## Separated items -/

theorem separated_cons {item : List Token} {items : List (List Token)} (h : items ≠ []) :
    separated (item :: items) = item ++ .comma :: separated items := by
  cases items with
  | nil => exact absurd rfl h
  | cons next items => rfl

theorem exists_separated_cons (item : List Token) (items : List (List Token)) :
    ∃ tail, separated (item :: items) = item ++ tail := by
  cases items with
  | nil => exact ⟨[], (List.append_nil item).symm⟩
  | cons next items => exact ⟨_, rfl⟩

theorem length_le_length_separated {items : List (List Token)} (h : ∀ item ∈ items, item ≠ []) :
    items.length ≤ (separated items).length := by
  induction items with
  | nil => exact Nat.le_refl 0
  | cons item items ih =>
      have hrest := ih fun item hitem => h item (List.mem_cons_of_mem _ hitem)
      have hitem := List.length_pos_iff.2 (h item List.mem_cons_self)
      by_cases hnil : items = []
      · subst hnil
        exact hitem
      · rw [separated_cons hnil, List.length_append, List.length_cons, List.length_cons]
        omega

/-! ## Texts -/

theorem Schema.parse_of_spells {α : Type} {schema : Schema α} {tokens : List Token} {text : String}
    (htext : Spells tokens text.toList) (htokens : Legible tokens) :
    schema.parse text = match schema.read tokens with
      | .ok (a, []) => .ok a
      | .ok (_, _ :: _) => .error .malformed
      | .error refusal => .error refusal := by
  obtain rfl := scan_of_spells htext htokens
  rfl

end KineticGrid.Document
