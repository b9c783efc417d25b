import Mathlib.Data.List.TakeWhile
import Tollgate.Coin.Decimal
import Tollgate.Proofs.Text.Digits
/-! Decimals are read exactly and read back. What a text stands for is said apart from how it is read;
nothing wraps on the way, and the letter at which a price is cut is never inside the number. -/
namespace Tollgate

namespace Text

theorem isAlpha_eq_false {c : Char} (h : c.isDigit = true) : c.isAlpha = false := by
  have hdigits : ∀ n < 10, n.digitChar.isAlpha = false := by decide
  obtain ⟨hlt, hc⟩ := digitChar_of_isDigit h
  rw [← hc, hdigits _ hlt]

theorem isSpace_eq_false {c : Char} (h : c.isDigit = true) : isSpace c = false := by
  have hdigits : ∀ n < 10, isSpace n.digitChar = false := by decide
  obtain ⟨hlt, hc⟩ := digitChar_of_isDigit h
  rw [← hc, hdigits _ hlt]

theorem trim_eq_self {cs : List Char} (h : ∀ c ∈ cs, isSpace c = false) : trim cs = cs := by
  have hkeep {xs : List Char} (hx : ∀ c ∈ xs, isSpace c = false) : xs.dropWhile isSpace = xs := by
    refine List.dropWhile_eq_self_iff.2 fun hl => ?_
    rw [hx _ (List.getElem_mem hl)]
    exact Bool.false_ne_true
  unfold trim
  rw [hkeep h, hkeep fun c hc => h c (List.mem_reverse.1 hc), List.reverse_reverse]

theorem point_notMem {cs : List Char} (h : cs.all Char.isDigit = true) : '.' ∉ cs := fun hm =>
  absurd (List.all_eq_true.1 h _ hm) (by decide)

end Text

theorem Amount.ofDigits?_eq_some_iff_value {cs : List Char} {a : Amount} : ofDigits? cs = some a ↔
    (cs ≠ [] ∧ cs.all Char.isDigit = true) ∧ a.toNat = Nat.ofDigitChars 10 cs 0 := by
  rw [ofDigits?_eq, Option.bind_eq_some_iff]
  simp only [ofNat?_eq_some_iff, Text.ofDigits?_eq_some_iff_value]
  constructor
  · rintro ⟨n, ⟨hdigits, rfl⟩, ha⟩
    exact ⟨hdigits, ha⟩
  · rintro ⟨hdigits, ha⟩
    exact ⟨_, ⟨hdigits, rfl⟩, ha⟩

namespace Decimal

/-- The units of the eighteenth place in some digits before the point and up to eighteen after it. -/
def units (whole fraction : List Char) : Nat :=
  Nat.ofDigitChars 10 whole 0 * 10 ^ 18 +
    Nat.ofDigitChars 10 fraction 0 * 10 ^ (18 - fraction.length)

/-- Digits, at least one, that may stand before a point, and digits that may stand after it. -/
structure AreParts (whole fraction : List Char) : Prop where
  ne_nil : whole ≠ []
  whole_digits : whole.all Char.isDigit = true
  fraction_digits : fraction.all Char.isDigit = true
  length_le : fraction.length ≤ 18

/-- A text of digits, with at most one point among them but not before them, stands for a number of
units. -/
inductive Spells : List Char → Nat → Prop
  | whole {whole : List Char} (h : AreParts whole []) : Spells whole (units whole [])
  | point {whole fraction : List Char} (h : AreParts whole fraction) :
      Spells (whole ++ '.' :: fraction) (units whole fraction)

theorem splitPoint_of_notMem {cs : List Char} (h : '.' ∉ cs) : splitPoint cs = (cs, []) := by
  have hall : ∀ c ∈ cs, decide (c ≠ '.') = true := fun c hc =>
    decide_eq_true fun he => h (he ▸ hc)
  unfold splitPoint
  rw [List.takeWhile_eq_self_iff.2 hall, List.dropWhile_eq_nil_iff.2 hall, List.drop_nil]

theorem splitPoint_append {whole : List Char} (h : '.' ∉ whole) (fraction : List Char) :
    splitPoint (whole ++ '.' :: fraction) = (whole, fraction) := by
  have hall : ∀ c ∈ whole, decide (c ≠ '.') = true := fun c hc =>
    decide_eq_true fun he => h (he ▸ hc)
  unfold splitPoint
  rw [List.takeWhile_append_of_pos hall, List.dropWhile_append_of_pos hall]
  simp

/-- A text without a point is not split; any other is split at a point. -/
theorem splitPoint_cases (cs : List Char) : splitPoint cs = (cs, []) ∨
    ∃ whole fraction, splitPoint cs = (whole, fraction) ∧ cs = whole ++ '.' :: fraction := by
  by_cases h : '.' ∈ cs
  · obtain ⟨whole, fraction, rfl, hw⟩ := List.eq_append_cons_of_mem h
    exact .inr ⟨whole, fraction, splitPoint_append hw fraction, rfl⟩
  · exact .inl (splitPoint_of_notMem h)

section Parts

variable {cs whole fraction : List Char} {d : Decimal}

/-- An absent fraction is read like an empty run of digits. -/
theorem bind_fraction {β : Type} (fraction : List Char) (k : Nat → Option β) :
    (if fraction = [] then (some 0).bind k else (Text.ofDigits? fraction).bind k) =
      if fraction.all Char.isDigit then k (Nat.ofDigitChars 10 fraction 0) else none := by
  by_cases hne : fraction = []
  · rw [hne]
    rfl
  · unfold Text.ofDigits?
    rw [if_neg hne]
    by_cases hd : fraction.all Char.isDigit = true <;> simp [hne, hd]

theorem guard_bind {β : Type} (p : Prop) [Decidable p] (x : Option β) :
    ((guard p : Option Unit).bind fun _ => x) = if p then x else none := by
  by_cases h : p <;> simp [guard, h]

/-- The number of these units and those of the fraction, if it fits. -/
def withFraction? (int : Amount) (fraction : List Char) (frac : Nat) : Option Decimal :=
  (Amount.ofNat? (int.toNat * one + frac * 10 ^ (places - fraction.length))).bind fun raw =>
    some ⟨raw⟩

theorem read?_eq (hsplit : splitPoint cs = (whole, fraction)) : read? cs =
    if fraction.length ≤ places then
      (Amount.ofDigits? whole).bind fun int =>
        if fraction.all Char.isDigit then
          withFraction? int fraction (Nat.ofDigitChars 10 fraction 0) else none
    else none := by
  have hread : read? cs = (guard (fraction.length ≤ places) : Option Unit).bind fun _ =>
      (Amount.ofDigits? whole).bind fun int => if fraction = [] then
        (some 0).bind (withFraction? int fraction) else
        (Text.ofDigits? fraction).bind (withFraction? int fraction) := by
    unfold read?
    rw [hsplit]
    rfl
  rw [hread, guard_bind]
  simp only [bind_fraction]

theorem withFraction?_eq_some_iff {int : Amount} {frac : Nat} :
    withFraction? int fraction frac = some d ↔
      d.raw.toNat = int.toNat * one + frac * 10 ^ (places - fraction.length) := by
  unfold withFraction?
  rw [Option.bind_eq_some_iff]
  simp only [Amount.ofNat?_eq_some_iff]
  constructor
  · rintro ⟨raw, hraw, hd⟩
    rw [← Option.some.inj hd, hraw]
  · exact fun h => ⟨d.raw, h, rfl⟩

theorem units_eq (whole fraction : List Char) : units whole fraction =
    Nat.ofDigitChars 10 whole 0 * one +
      Nat.ofDigitChars 10 fraction 0 * 10 ^ (places - fraction.length) := rfl

theorem le_units (whole fraction : List Char) :
    Nat.ofDigitChars 10 whole 0 ≤ units whole fraction :=
  (Nat.le_mul_of_pos_right _ (by decide)).trans (Nat.le_add_right _ _)

/-- The whole part by itself fits if the number does. -/
theorem read?_eq_some_iff_parts (hsplit : splitPoint cs = (whole, fraction)) :
    read? cs = some d ↔ AreParts whole fraction ∧ d.raw.toNat = units whole fraction := by
  rw [read?_eq hsplit, Option.ite_none_right_eq_some, Option.bind_eq_some_iff]
  simp only [Option.ite_none_right_eq_some, Amount.ofDigits?_eq_some_iff_value,
    withFraction?_eq_some_iff]
  constructor
  · rintro ⟨hlen, int, ⟨⟨hne, hw⟩, hint⟩, hf, hraw⟩
    rw [hint] at hraw
    exact ⟨⟨hne, hw, hf, hlen⟩, hraw⟩
  · rintro ⟨h, hraw⟩
    have hint : Nat.ofDigitChars 10 whole 0 < 2 ^ 128 :=
      (hraw ▸ le_units whole fraction).trans_lt d.raw.toNat_lt
    exact ⟨h.length_le, ⟨_, hint⟩, ⟨⟨h.ne_nil, h.whole_digits⟩, rfl⟩, h.fraction_digits, hraw⟩

theorem read?_eq_some_iff : read? cs = some d ↔ Spells cs d.raw.toNat := by
  constructor
  · intro h
    rcases splitPoint_cases cs with hsplit | ⟨whole, fraction, hsplit, rfl⟩
    · obtain ⟨hparts, hraw⟩ := (read?_eq_some_iff_parts hsplit).1 h
      rw [hraw]
      exact .whole hparts
    · obtain ⟨hparts, hraw⟩ := (read?_eq_some_iff_parts hsplit).1 h
      rw [hraw]
      exact .point hparts
  · generalize hn : d.raw.toNat = n
    rintro (h | h)
    · have hsplit := splitPoint_of_notMem (Text.point_notMem h.whole_digits)
      exact (read?_eq_some_iff_parts hsplit).2 ⟨h, hn⟩
    · exact (read?_eq_some_iff_parts
        (splitPoint_append (Text.point_notMem h.whole_digits) _)).2 ⟨h, hn⟩

theorem parse_eq_ok_iff {s : String} : parse s = .ok d ↔ Spells s.toList d.raw.toNat := by
  rw [← read?_eq_some_iff]
  unfold parse
  cases read? s.toList <;> simp

end Parts

section Words

variable {cs whole fraction : List Char} {d : Decimal} {frac : Amount}

/-- The units of a fraction of some length, multiplied in words of 128 bits. -/
def scaledWord (frac : Amount) (length : Nat) : BitVec 128 :=
  .ofNat 128 frac.toNat * 10#128 ^ (places - length)

/-- The checked steps behind the scaled fraction. -/
def addWords? (int : Amount) (length : Nat) (frac : Amount) : Option Decimal := do
  let scaled ← Amount.ofNat? (int.toNat * one)
  let raw ← Amount.ofNat? (scaled.toNat + (scaledWord frac length).toNat)
  return ⟨raw⟩

/-- Reading in words of 128 bits. The fraction is scaled without a check; the whole part is scaled, and
the fraction added, with one. -/
def readWords? (cs : List Char) : Option Decimal := do
  let (whole, fraction) := splitPoint cs
  guard (fraction.length ≤ places)
  let int ← Amount.ofDigits? whole
  let frac ← if fraction = [] then some .zero else Amount.ofDigits? fraction
  addWords? int fraction.length frac

theorem toNat_ten_pow {k : Nat} (h : k ≤ places) : (10#128 ^ k).toNat = 10 ^ k := by
  have hbound : 10 ^ places < 2 ^ 128 := by decide
  induction k with
  | zero => rfl
  | succ k ih =>
    have hk := Nat.pow_le_pow_right (by decide : 0 < 10) h
    have hten : (10#128).toNat = 10 := rfl
    rw [BitVec.pow_succ, BitVec.toNat_mul, ih (Nat.le_of_succ_le h), hten, ← Nat.pow_succ,
      Nat.mod_eq_of_lt (hk.trans_lt hbound)]

/-- Up to eighteen digits are scaled without wrapping. -/
theorem toNat_scaledWord (hf : fraction.all Char.isDigit = true) (hlen : fraction.length ≤ places)
    (hfrac : frac.toNat = Nat.ofDigitChars 10 fraction 0) :
    (scaledWord frac fraction.length).toNat =
      Nat.ofDigitChars 10 fraction 0 * 10 ^ (places - fraction.length) := by
  have hbound : 10 ^ places < 2 ^ 128 := by decide
  have hproduct : Nat.ofDigitChars 10 fraction 0 * 10 ^ (places - fraction.length) < 10 ^ places :=
    calc Nat.ofDigitChars 10 fraction 0 * 10 ^ (places - fraction.length)
        < 10 ^ fraction.length * 10 ^ (places - fraction.length) :=
          Nat.mul_lt_mul_of_pos_right (Text.ofDigitChars_lt hf) (Nat.pow_pos (by decide))
      _ = 10 ^ places := by rw [← Nat.pow_add, Nat.add_sub_cancel' hlen]
  unfold scaledWord
  rw [BitVec.toNat_mul, toNat_ten_pow (Nat.sub_le _ _), BitVec.toNat_ofNat,
    Nat.mod_eq_of_lt frac.toNat_lt, hfrac, Nat.mod_eq_of_lt (hproduct.trans hbound)]

/-- Up to eighteen digits are an amount. -/
theorem exists_amount (hf : fraction.all Char.isDigit = true) (hlen : fraction.length ≤ places) :
    ∃ frac : Amount, frac.toNat = Nat.ofDigitChars 10 fraction 0 := by
  have hvalue := Text.ofDigitChars_lt hf
  have hpow : 10 ^ fraction.length ≤ 10 ^ places := Nat.pow_le_pow_right (by decide) hlen
  have hbound : 10 ^ places < 2 ^ 128 := by decide
  exact ⟨⟨_, (hvalue.trans_le hpow).trans hbound⟩, rfl⟩

theorem addWords?_eq {int : Amount} (hf : fraction.all Char.isDigit = true)
    (hlen : fraction.length ≤ places) (hfrac : frac.toNat = Nat.ofDigitChars 10 fraction 0) :
    addWords? int fraction.length frac =
      withFraction? int fraction (Nat.ofDigitChars 10 fraction 0) := by
  refine Option.ext fun d => ?_
  unfold addWords?
  simp only [withFraction?_eq_some_iff, toNat_scaledWord hf hlen hfrac, Option.bind_eq_bind,
    Option.bind_eq_some_iff, Amount.ofNat?_eq_some_iff]
  constructor
  · rintro ⟨scaled, hscaled, raw, hraw, hd⟩
    rw [← Option.some.inj hd, hraw, hscaled]
  · intro h
    have hscaled : int.toNat * one < 2 ^ 128 := (h ▸ Nat.le_add_right _ _).trans_lt d.raw.toNat_lt
    exact ⟨⟨_, hscaled⟩, rfl, d.raw, h, rfl⟩

/-- What is read in words is what is read. -/
theorem readWords?_eq (cs : List Char) : readWords? cs = read? cs := by
  obtain ⟨whole, fraction, hsplit⟩ : ∃ whole fraction, splitPoint cs = (whole, fraction) :=
    ⟨_, _, rfl⟩
  have hread : readWords? cs = (guard (fraction.length ≤ places) : Option Unit).bind fun _ =>
      (Amount.ofDigits? whole).bind fun int => if fraction = [] then
        (some .zero).bind (addWords? int fraction.length) else
        (Amount.ofDigits? fraction).bind (addWords? int fraction.length) := by
    unfold readWords?
    rw [hsplit]
    rfl
  rw [hread, guard_bind, read?_eq hsplit]
  refine if_ctx_congr Iff.rfl (fun hlen => ?_) fun _ => rfl
  refine Option.bind_congr fun int _ => ?_
  by_cases hd : fraction.all Char.isDigit = true
  · obtain ⟨frac, hfrac⟩ := exists_amount hd hlen
    rw [if_pos hd, ← addWords?_eq hd hlen hfrac]
    by_cases hne : fraction = []
    · subst hne
      have hzero : frac = .zero := Amount.toNat_inj.1 hfrac
      rw [if_pos rfl, Option.bind_some, hzero]
    · rw [if_neg hne, Amount.ofDigits?_eq_some_iff_value.2 ⟨⟨hne, hd⟩, hfrac⟩, Option.bind_some]
  · have hne : fraction ≠ [] := fun he => hd (he ▸ rfl)
    have hnone : Amount.ofDigits? fraction = none := Option.eq_none_iff_forall_ne_some.2
      fun a ha => hd (Amount.ofDigits?_eq_some_iff_value.1 ha).1.2
    rw [if_neg hd, if_neg hne, hnone, Option.bind_none]

end Words

/-- The printed text stands for the number. -/
theorem spells_chars (d : Decimal) : Spells d.chars d.raw.toNat := by
  have hrest : d.raw.toNat % one < 10 ^ places := Nat.mod_lt _ (by decide)
  have hlen : (Text.padLeft places (Text.digits (d.raw.toNat % one))).length = places :=
    Text.length_padLeft ((Nat.length_toDigits_le_iff (by decide) (by decide)).2 hrest)
  have hparts : AreParts (Text.digits (d.raw.toNat / one))
      (Text.padLeft places (Text.digits (d.raw.toNat % one))) :=
    ⟨Nat.toDigits_ne_nil, Text.all_isDigit_digits _,
      Text.all_isDigit_padLeft places (Text.all_isDigit_digits _), hlen.le⟩
  have hunits : units (Text.digits (d.raw.toNat / one))
      (Text.padLeft places (Text.digits (d.raw.toNat % one))) = d.raw.toNat := by
    unfold Text.digits at hlen ⊢
    rw [units_eq, Text.ofDigitChars_padLeft, Nat.ofDigitChars_ten_toDigits,
      Nat.ofDigitChars_ten_toDigits, hlen, Nat.sub_self, Nat.pow_zero, Nat.mul_one,
      Nat.div_add_mod']
  have hspells := Spells.point hparts
  rw [hunits] at hspells
  exact hspells

theorem parse_text (d : Decimal) : parse d.text = .ok d := by
  rw [parse_eq_ok_iff, text, String.toList_ofList]
  exact d.spells_chars

theorem mem_chars {d : Decimal} {c : Char} (h : c ∈ d.chars) : c.isDigit = true ∨ c = '.' := by
  have hrest := Text.all_isDigit_padLeft places (Text.all_isDigit_digits (d.raw.toNat % one))
  rcases List.mem_append.1 h with hm | hm
  · exact .inl (List.all_eq_true.1 (Text.all_isDigit_digits _) c hm)
  · rcases List.mem_cons.1 hm with rfl | hm
    · exact .inr rfl
    · exact .inl (List.all_eq_true.1 hrest c hm)

end Decimal

namespace GasPrice

/-- A well-formed denom begins with a letter, and no letter is in the printed number. -/
theorem parse_text {p : GasPrice} (h : Denom.isValid p.denom = true) : parse p.text = .ok p := by
  obtain ⟨c, cs, hdenom, halpha⟩ : ∃ c cs, p.denom.toList = c :: cs ∧ c.isAlpha = true := by
    unfold Denom.isValid at h
    split at h
    · cases h
    · next c cs hdenom =>
      simp only [Bool.and_eq_true] at h
      exact ⟨c, cs, hdenom, h.1.1.1⟩
  have hnumber : ∀ x ∈ p.amount.chars, (!x.isAlpha) = true := by
    intro x hx
    rcases Decimal.mem_chars hx with hd | rfl
    · rw [Text.isAlpha_eq_false hd]
      rfl
    · rfl
  have hbare : ∀ x ∈ p.amount.chars, Text.isSpace x = false := by
    intro x hx
    rcases Decimal.mem_chars hx with hd | rfl
    · exact Text.isSpace_eq_false hd
    · rfl
  have htext : p.text.toList = p.amount.chars ++ c :: cs := by
    rw [text, String.toList_append, hdenom, Decimal.text, String.toList_ofList]
  have hcheck : Denom.check p.denom = .ok () := if_pos h
  have hback : String.ofList (c :: cs) = p.denom := by rw [← hdenom, String.ofList_toList]
  have htake : p.text.toList.takeWhile (fun x => !x.isAlpha) = p.amount.chars := by
    rw [htext, List.takeWhile_append_of_pos hnumber, List.takeWhile_cons_of_neg (by simp [halpha]),
      List.append_nil]
  have hdrop : p.text.toList.dropWhile (fun x => !x.isAlpha) = c :: cs := by
    rw [htext, List.dropWhile_append_of_pos hnumber, List.dropWhile_cons_of_neg (by simp [halpha])]
  have hamount : Decimal.parse (String.ofList (Text.trim p.amount.chars)) = .ok p.amount := by
    rw [Text.trim_eq_self hbare]
    exact p.amount.parse_text
  unfold parse
  dsimp only
  rw [htake, hdrop, if_neg (List.cons_ne_nil c cs), hback, hcheck, hamount]
  rfl

end GasPrice

/-- A text is read as a number of units exactly if it stands for them and they fit. Reading in words of
128 bits comes to the same, for the powers of ten and the one product that is not checked are exact.
What is printed is read back, as a decimal and as the price of a well-formed denom. -/
theorem decimals_exact :
    (∀ s n, (∃ d, Decimal.parse s = .ok d ∧ d.raw.toNat = n) ↔
      Decimal.Spells s.toList n ∧ n < 2 ^ 128) ∧
    (∀ cs, Decimal.readWords? cs = Decimal.read? cs) ∧
    (∀ k ≤ Decimal.places, (10#128 ^ k).toNat = 10 ^ k) ∧
    (∀ (fraction : List Char) (frac : Amount), fraction.all Char.isDigit = true →
      fraction.length ≤ 18 → frac.toNat = Nat.ofDigitChars 10 fraction 0 →
      (Decimal.scaledWord frac fraction.length).toNat =
        Nat.ofDigitChars 10 fraction 0 * 10 ^ (18 - fraction.length)) ∧
    (∀ d : Decimal, Decimal.parse d.text = .ok d) ∧
    ∀ p : GasPrice, Denom.isValid p.denom = true → GasPrice.parse p.text = .ok p := by
  refine ⟨fun s n => ⟨?_, ?_⟩, Decimal.readWords?_eq,
    fun _ hk => Decimal.toNat_ten_pow hk, fun _ _ hf hlen hfrac =>
      Decimal.toNat_scaledWord hf hlen hfrac,
    Decimal.parse_text, fun _ h => GasPrice.parse_text h⟩
  · rintro ⟨d, hd, rfl⟩
    exact ⟨Decimal.parse_eq_ok_iff.1 hd, d.raw.toNat_lt⟩
  · rintro ⟨hspells, hn⟩
    exact ⟨⟨⟨n, hn⟩⟩, Decimal.parse_eq_ok_iff.2 hspells, rfl⟩

/-- A price as it stands in a configuration. -/
def ustakePrice : GasPrice := ⟨"ustake", ⟨.clamp (25 * 10 ^ 15)⟩⟩

theorem ustakePrice_exact :
    (∃ d, Decimal.parse "0.025" = .ok d ∧ d.raw.toNat = 25 * 10 ^ 15) ∧
    Decimal.parse "0.025000000000000000" = .ok ustakePrice.amount ∧
    GasPrice.parse "0.025000000000000000ustake" = .ok ustakePrice := by
  obtain ⟨hread, -, -, -, hdecimal, hprice⟩ := decimals_exact
  have hspells : Decimal.Spells (['0'] ++ '.' :: ['0', '2', '5'])
      (Decimal.units ['0'] ['0', '2', '5']) :=
    .point ⟨by decide, by decide, by decide, by decide⟩
  have htext : ustakePrice.amount.text = "0.025000000000000000" := by decide +kernel
  have hprinted : ustakePrice.text = "0.025000000000000000ustake" := by decide +kernel
  refine ⟨(hread "0.025" _).2 ⟨hspells, by decide⟩, ?_, ?_⟩
  · rw [← htext]
    exact hdecimal _
  · rw [← hprinted]
    exact hprice _ (by decide)

end Tollgate
