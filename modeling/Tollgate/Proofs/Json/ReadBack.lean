import Mathlib.Tactic.IntervalCases
import Tollgate.Json.Print
import Tollgate.Json.Reader
import Tollgate.Proofs.Text.Digits
/-! The compact text of a document is read back as the document, unless a number has no value or a
control character stands unescaped. So no two documents have one text. -/
namespace Tollgate.Json

/-- Documents that keep their meaning when they are printed. -/
inductive Plain : Json → Prop
  | null : Plain .null
  | bool (b : Bool) : Plain (.bool b)
  | number {n : Nat} (h : n < 2 ^ 64) : Plain (.number (some n))
  | text {t : JsonText} (h : t.hasControl = false) : Plain (.text t)
  | list {xs : List Json} (h : ∀ x ∈ xs, Plain x) : Plain (.list xs)
  | object {ms : List (JsonText × Json)} (hk : ∀ m ∈ ms, m.1.hasControl = false)
    (hv : ∀ m ∈ ms, Plain m.2) : Plain (.object ms)

/-- The state of the reader after some bytes. -/
def steps (keep : Bool) (s : State) (bs : Bytes) : Except Reason State := bs.foldlM (step keep) s

variable {keep : Bool} {s t : State} {stack : List Frame}

theorem steps_cons_of_ok {b : UInt8} (h : step keep s b = .ok t) (bs : Bytes) :
    steps keep s (b :: bs) = steps keep t bs := by
  rw [steps, List.foldlM_cons, h]
  rfl

theorem steps_append_of_ok {xs : Bytes} (h : steps keep s xs = .ok t) (ys : Bytes) :
    steps keep s (xs ++ ys) = steps keep t ys := by
  rw [steps, List.foldlM_append]
  change steps keep s xs >>= _ = _
  rw [h]
  rfl

theorem readFrom_of_steps {bs : Bytes} {v : Json} (h : steps keep s bs = .ok t)
    (hf : t.finish = .ok v) (p : Position) : readFrom keep s p bs = .ok v := by
  induction bs generalizing s p with
  | nil =>
    obtain rfl := Except.ok.inj h
    rw [readFrom, hf]
  | cons b bs ih =>
    cases hs : step keep s b with
    | error r =>
      rw [steps, List.foldlM_cons, hs] at h
      cases h
    | ok u =>
      rw [steps_cons_of_ok hs] at h
      rw [readFrom, hs]
      exact ih h _

section Strings

/-- What a byte of a string is read as, after it was escaped. -/
def pieceOf (b : UInt8) : Piece :=
  if b < 32 ∧ b ∉ [8, 9, 10, 12, 13] then .unit b.toNat else .byte b

theorem assemble_pieceOf (b : UInt8) (older : List Piece) (rest : Bytes) :
    assemble (pieceOf b :: older) rest = assemble older (b :: rest) := by
  unfold pieceOf
  split
  · next h =>
    have hlt : b.toNat < 32 := h.1
    have hlow : isLowSurrogate b.toNat = false := by simp [isLowSurrogate]; omega
    have hpoint : codePoint b.toNat = [b] := by
      rw [codePoint, if_pos (by omega), UInt8.ofNat_toNat]
    rcases older with _ | ⟨_ | _, older⟩ <;> simp [assemble, hlow, hpoint]
  · rfl

theorem assemble_pieces (bs : Bytes) (older : List Piece) (rest : Bytes) :
    assemble ((bs.map pieceOf).reverse ++ older) rest = assemble older (bs ++ rest) := by
  induction bs generalizing older rest with
  | nil => rfl
  | cons b bs ih =>
    rw [List.map_cons, List.reverse_cons, List.append_assoc, ih, List.singleton_append,
      assemble_pieceOf, List.cons_append]

variable {role : Role} {pieces : List Piece} {hasControl : Bool}

theorem hexValue?_hexDigit : ∀ n < 16, String.utf8EncodeChar (hexDigit n) =
    [UInt8.ofNat (hexDigit n).toNat] ∧ hexValue? (UInt8.ofNat (hexDigit n).toNat) = some n := by
  decide

/-- The four digits of an escape. -/
theorem steps_hexText (b : UInt8) :
    steps keep ⟨.string role pieces hasControl (.hex 2 (some 0)), stack⟩ (utf8 (hexText [b])) =
      .ok ⟨.string role (.unit b.toNat :: pieces) hasControl .none, stack⟩ := by
  have hb := b.toNat_lt
  obtain ⟨hhigh, hhigh'⟩ := hexValue?_hexDigit (b.toNat / 16) (by omega)
  obtain ⟨hlow, hlow'⟩ := hexValue?_hexDigit (b.toNat % 16) (by omega)
  have hvalue : 16 * (b.toNat / 16) + b.toNat % 16 = b.toNat := Nat.div_add_mod _ _
  have hbytes : utf8 (hexText [b]) = [UInt8.ofNat (hexDigit (b.toNat / 16)).toNat,
      UInt8.ofNat (hexDigit (b.toNat % 16)).toNat] := by
    rw [hexText, utf8_ofList]
    simp [hhigh, hlow]
  have hfirst : step keep ⟨.string role pieces hasControl (.hex 2 (some 0)), stack⟩
      (UInt8.ofNat (hexDigit (b.toNat / 16)).toNat) =
      .ok ⟨.string role pieces hasControl (.hex 3 (some (b.toNat / 16))), stack⟩ := by
    simp [step, stepString, hhigh']
  have hsecond : step keep ⟨.string role pieces hasControl (.hex 3 (some (b.toNat / 16))), stack⟩
      (UInt8.ofNat (hexDigit (b.toNat % 16)).toNat) =
      .ok ⟨.string role (.unit b.toNat :: pieces) hasControl .none, stack⟩ := by
    simp [step, stepString, hlow', hvalue]
  rw [hbytes, steps_cons_of_ok hfirst, steps_cons_of_ok hsecond]
  rfl

theorem steps_escaped (b : UInt8) :
    steps keep ⟨.string role pieces hasControl .none, stack⟩ (escaped b) =
      .ok ⟨.string role (pieceOf b :: pieces) hasControl .none, stack⟩ := by
  by_cases hletter : b ∈ [34, 92, 8, 12, 10, 13, 9]
  · simp only [List.mem_cons, List.not_mem_nil, or_false] at hletter
    rcases hletter with rfl | rfl | rfl | rfl | rfl | rfl | rfl <;> rfl
  · simp only [List.mem_cons, List.not_mem_nil, or_false, not_or] at hletter
    obtain ⟨h34, h92, h8, h12, h10, h13, h9⟩ := hletter
    simp only [escaped, h34, h92, h8, h12, h10, h13, h9, if_false]
    by_cases hcontrol : b < 32
    · have hpiece : pieceOf b = .unit b.toNat := if_pos ⟨hcontrol, by simp [h8, h9, h10, h12, h13]⟩
      have hopen : steps keep ⟨.string role pieces hasControl .none, stack⟩ (utf8 "\\u00") =
          .ok ⟨.string role pieces hasControl (.hex 2 (some 0)), stack⟩ := rfl
      rw [if_pos hcontrol, steps_append_of_ok hopen, steps_hexText, hpiece]
    · have hpiece : pieceOf b = .byte b := if_neg fun h => hcontrol h.1
      rw [if_neg hcontrol, hpiece]
      simp [steps, step, stepString, h34, h92, hcontrol]

theorem steps_escaped_all (bs : Bytes) :
    steps keep ⟨.string role pieces hasControl .none, stack⟩ (bs.flatMap escaped) =
      .ok ⟨.string role ((bs.map pieceOf).reverse ++ pieces) hasControl .none, stack⟩ := by
  induction bs generalizing pieces with
  | nil => rfl
  | cons b bs ih =>
    rw [List.flatMap_cons, steps_append_of_ok (steps_escaped b), ih, List.map_cons,
      List.reverse_cons, List.append_assoc, List.singleton_append]

/-- The bytes after the opening quote. -/
theorem steps_string (bs : Bytes) :
    steps keep ⟨.string role [] false .none, stack⟩ (bs.flatMap escaped ++ [34]) =
      .ok (endString role ⟨bs, false⟩ stack) := by
  rw [steps_append_of_ok (steps_escaped_all bs)]
  have hbytes : assemble ((bs.map pieceOf).reverse ++ []) [] = bs := by
    rw [assemble_pieces, List.append_nil]
    rfl
  have hstep : step keep ⟨.string role ((bs.map pieceOf).reverse ++ []) false .none, stack⟩ 34 =
      .ok (endString role ⟨assemble ((bs.map pieceOf).reverse ++ []) [], false⟩ stack) := rfl
  rw [steps_cons_of_ok hstep, hbytes]
  rfl

end Strings

/-- States in which a value is complete; a number may still go on. -/
inductive Ends (v : Json) (stack : List Frame) : State → Prop
  | completed : Ends v stack (completed v stack)
  | number {p : NumberPart} (h : p.value? = some v) : Ends v stack ⟨.number p, stack⟩

namespace Ends

variable {v : Json}

/-- A comma or a closing bracket ends a number too. -/
theorem step_eq (h : Ends v stack t) {b : UInt8} (hb : b ∈ [44, 93, 125]) :
    step keep t b = follow (complete v stack).1 (complete v stack).2 b := by
  cases h with
  | completed => rfl
  | @number p h =>
    have hnext : p.next? b = none ∧ p.refuses b = false := by
      simp only [List.mem_cons, List.not_mem_nil, or_false] at hb
      rcases hb with rfl | rfl | rfl <;> cases p <;> exact ⟨rfl, rfl⟩
    simp [step, stepNumber, hnext, h]

theorem finish_eq (h : Ends v [] t) : t.finish = .ok v := by
  cases h with
  | completed => rfl
  | number h =>
    simp only [State.finish, h]
    rfl

end Ends

/-- Where a value must start, its text leads to its end. -/
def Reads (keep : Bool) (j : Json) : Prop :=
  ∀ stack, ∃ t, steps keep ⟨.value, stack⟩ j.print = .ok t ∧ Ends j stack t

section Containers

theorem steps_printItems {xs items : List Json} {x : Json} (hxs : ∀ y ∈ xs, Reads keep y)
    (ht : Ends x (.list items :: stack) t) : steps keep t (printItems xs) =
      .ok (completed (.list (items.reverse ++ x :: xs)) stack) := by
  induction xs generalizing items x t with
  | nil =>
    have hclose : step keep t 93 = .ok (completed (.list (items.reverse ++ [x])) stack) := by
      rw [ht.step_eq (by decide), ← List.reverse_cons]
      rfl
    rw [printItems, steps_cons_of_ok hclose]
    rfl
  | cons y ys ih =>
    have hcomma : step keep t 44 = .ok ⟨.value, .list (x :: items) :: stack⟩ := by
      rw [ht.step_eq (by decide)]
      rfl
    obtain ⟨u, hu, hends⟩ := hxs y List.mem_cons_self (.list (x :: items) :: stack)
    rw [printItems, steps_cons_of_ok hcomma, steps_append_of_ok hu,
      ih (fun z hz => hxs z (List.mem_cons_of_mem y hz)) hends, List.reverse_cons,
      List.append_assoc, List.singleton_append]

/-- A key, the colon and the value, from the opening quote on. -/
theorem steps_member {ms : List (JsonText × Json)} {k : JsonText} {v : Json}
    (hs : step keep s 34 = .ok ⟨.string (.key ms) [] false .none, stack⟩)
    (hk : k.hasControl = false) (hv : Reads keep v) :
    ∃ t, Ends v (.object ms k :: stack) t ∧ ∀ rest,
      steps keep s (quoted k.bytes ++ 58 :: (v.print ++ rest)) = steps keep t rest := by
  obtain ⟨t, ht, hends⟩ := hv (.object ms k :: stack)
  have hkey : steps keep s (quoted k.bytes) = .ok ⟨.colon ms k, stack⟩ := by
    obtain ⟨bytes, _⟩ := k
    obtain rfl := hk
    rw [quoted, List.cons_append, steps_cons_of_ok hs, steps_string]
    rfl
  have hcolon : step keep ⟨.colon ms k, stack⟩ 58 = .ok ⟨.value, .object ms k :: stack⟩ := rfl
  refine ⟨t, hends, fun rest => ?_⟩
  rw [steps_append_of_ok hkey, steps_cons_of_ok hcolon, steps_append_of_ok ht]

theorem steps_printMembers {ns ms : List (JsonText × Json)} {k : JsonText} {v : Json}
    (hk : ∀ m ∈ ns, m.1.hasControl = false) (hv : ∀ m ∈ ns, Reads keep m.2)
    (ht : Ends v (.object ms k :: stack) t) : steps keep t (printMembers ns) =
      .ok (completed (.object (ms.reverse ++ (k, v) :: ns)) stack) := by
  induction ns generalizing ms k v t with
  | nil =>
    have hclose : step keep t 125 = .ok (completed (.object (ms.reverse ++ [(k, v)])) stack) := by
      rw [ht.step_eq (by decide), ← List.reverse_cons]
      rfl
    rw [printMembers, steps_cons_of_ok hclose]
    rfl
  | cons n ns ih =>
    obtain ⟨l, w⟩ := n
    have hcomma : step keep t 44 = .ok ⟨.key ((k, v) :: ms), stack⟩ := by
      rw [ht.step_eq (by decide)]
      rfl
    have hquote : step keep ⟨.key ((k, v) :: ms), stack⟩ 34 =
        .ok ⟨.string (.key ((k, v) :: ms)) [] false .none, stack⟩ := rfl
    obtain ⟨u, hends, hu⟩ := steps_member hquote
      (hk (l, w) List.mem_cons_self) (hv (l, w) List.mem_cons_self)
    rw [printMembers, steps_cons_of_ok hcomma, hu,
      ih (fun m hm => hk m (List.mem_cons_of_mem _ hm))
        (fun m hm => hv m (List.mem_cons_of_mem _ hm)) hends,
      List.reverse_cons, List.append_assoc, List.singleton_append]

end Containers

section Numbers

theorem isDigit_ofNat : ∀ d < 10,
    isDigit (UInt8.ofNat (48 + d)) = true ∧ digitValue (UInt8.ofNat (48 + d)) = d := by decide

theorem step_digit {m : Nat} {b : UInt8} (hb : isDigit b = true)
    (h : 10 * m + digitValue b < 2 ^ 64) : step keep ⟨.number (.integer (some m)), stack⟩ b =
      .ok ⟨.number (.integer (some (10 * m + digitValue b))), stack⟩ := by
  have hvalue : appendDigit (some m) b = some (10 * m + digitValue b) :=
    if_pos (decide_eq_true h)
  simp [step, stepNumber, NumberPart.next?, hb, hvalue]

theorem steps_decimal {n : Nat} (hpos : 0 < n) (hn : n < 2 ^ 64) :
    steps keep ⟨.value, stack⟩ (utf8 (Text.decimal n)) =
      .ok ⟨.number (.integer (some n)), stack⟩ := by
  induction n using Nat.strongRecOn with
  | ind n ih =>
    by_cases hsmall : n < 10
    · rw [Text.utf8_decimal_of_lt n hsmall]
      interval_cases n <;> rfl
    · have hd : n % 10 < 10 := Nat.mod_lt n (by decide)
      obtain ⟨hdigit, hvalue⟩ := isDigit_ofNat (n % 10) hd
      have hn' : 10 * (n / 10) + digitValue (UInt8.ofNat (48 + n % 10)) = n := by
        rw [hvalue, Nat.div_add_mod]
      have hstep : step keep ⟨.number (.integer (some (n / 10))), stack⟩ _ = _ :=
        step_digit hdigit (hn'.symm ▸ hn)
      conv_lhs => rw [← Nat.div_add_mod n 10]
      rw [Text.utf8_decimal_ten_mul_add (by omega) hd,
        steps_append_of_ok (ih (n / 10) (by omega) (by omega) (by omega)),
        steps_cons_of_ok hstep, hn']
      rfl

theorem reads_number {n : Nat} (h : n < 2 ^ 64) : Reads keep (.number (some n)) := by
  intro stack
  rcases Nat.eq_zero_or_pos n with rfl | hpos
  · exact ⟨⟨.number (.zero false), stack⟩, rfl, .number rfl⟩
  · exact ⟨_, steps_decimal hpos h, .number rfl⟩

end Numbers

/-- No text starts with a blank or a closing bracket. -/
theorem Plain.print_starts {j : Json} (h : Plain j) :
    ∃ b bs, j.print = b :: bs ∧ isSpace b = false ∧ b ≠ 93 := by
  cases h with
  | null => exact ⟨_, _, rfl, by decide⟩
  | bool b => cases b <;> exact ⟨_, _, rfl, by decide⟩
  | @number n h =>
    have hdigit (c : Char) (hc : c ∈ Text.digits n) :
        isSpace (UInt8.ofNat c.toNat) = false ∧ UInt8.ofNat c.toNat ≠ 93 := by
      obtain ⟨hlt, hchar⟩ :=
        Text.digitChar_of_isDigit (Nat.isDigit_of_mem_toDigits (by decide) (by decide) hc)
      have hall : ∀ n < 10, isSpace (UInt8.ofNat n.digitChar.toNat) = false ∧
          UInt8.ofNat n.digitChar.toNat ≠ 93 := by decide
      exact hchar ▸ hall _ hlt
    cases hd : Text.digits n with
    | nil => exact absurd hd Nat.toDigits_ne_nil
    | cons c cs =>
      refine ⟨UInt8.ofNat c.toNat, cs.map fun c => UInt8.ofNat c.toNat, ?_, hdigit c (by simp [hd])⟩
      rw [print, printNumber, Text.utf8_decimal, hd, List.map_cons]
  | text => exact ⟨_, _, rfl, by decide⟩
  | @list xs => cases xs <;> exact ⟨_, _, rfl, by decide⟩
  | @object ms => cases ms <;> exact ⟨_, _, rfl, by decide⟩

/-- The first item of a list is read like any value. -/
theorem steps_firstItem {j : Json} (h : Plain j) (bs : Bytes) :
    steps keep ⟨.firstItem, stack⟩ (j.print ++ bs) =
      steps keep ⟨.value, .list [] :: stack⟩ (j.print ++ bs) := by
  obtain ⟨b, cs, hj, hspace, hclose⟩ := h.print_starts
  have hstep : step keep ⟨.firstItem, stack⟩ b = step keep ⟨.value, .list [] :: stack⟩ b := by
    simp [step, hspace, hclose]
  rw [hj, List.cons_append, steps, steps, List.foldlM_cons, List.foldlM_cons, hstep]

theorem Plain.reads {j : Json} (h : Plain j) : Reads keep j := by
  induction h with
  | null => exact fun stack => ⟨_, rfl, .completed⟩
  | bool b => cases b <;> exact fun stack => ⟨_, rfl, .completed⟩
  | number h => exact reads_number h
  | @text t h =>
    intro stack
    obtain ⟨bytes, _⟩ := t
    obtain rfl := h
    refine ⟨_, ?_, .completed⟩
    have hquote : step keep ⟨.value, stack⟩ 34 = .ok ⟨.string .value [] false .none, stack⟩ := rfl
    rw [print, quoted, List.cons_append, steps_cons_of_ok hquote, steps_string]
    rfl
  | @list xs hxs ih =>
    intro stack
    refine ⟨_, ?_, .completed⟩
    cases xs with
    | nil => rfl
    | cons x xs =>
      have hopen : step keep ⟨.value, stack⟩ 91 = .ok ⟨.firstItem, stack⟩ := rfl
      obtain ⟨t, ht, hends⟩ := ih x List.mem_cons_self (.list [] :: stack)
      rw [print, steps_cons_of_ok hopen, steps_firstItem (hxs x List.mem_cons_self),
        steps_append_of_ok ht,
        steps_printItems (fun y hy => ih y (List.mem_cons_of_mem x hy)) hends]
      rfl
  | @object ms hk _ ih =>
    intro stack
    refine ⟨_, ?_, .completed⟩
    cases ms with
    | nil => rfl
    | cons m ms =>
      obtain ⟨k, v⟩ := m
      have hopen : step keep ⟨.value, stack⟩ 123 = .ok ⟨.firstKey, stack⟩ := rfl
      have hquote : step keep ⟨.firstKey, stack⟩ 34 =
          .ok ⟨.string (.key []) [] false .none, stack⟩ := rfl
      obtain ⟨t, hends, ht⟩ := steps_member hquote
        (hk (k, v) List.mem_cons_self) (ih (k, v) List.mem_cons_self)
      rw [print, steps_cons_of_ok hopen, ht,
        steps_printMembers (fun m hm => hk m (List.mem_cons_of_mem _ hm))
          (fun m hm => ih m (List.mem_cons_of_mem _ hm)) hends]
      rfl

theorem read_print {j : Json} (h : Plain j) : read keep j.print = .ok j := by
  have hreads : Reads keep j := h.reads
  obtain ⟨t, ht, hends⟩ := hreads []
  exact readFrom_of_steps ht hends.finish_eq _

theorem print_inj {i j : Json} (hi : Plain i) (hj : Plain j) : i.print = j.print ↔ i = j := by
  refine ⟨fun h => ?_, fun h => h ▸ rfl⟩
  have hread : read false i.print = .ok i := read_print hi
  rw [h, read_print hj] at hread
  exact (Except.ok.inj hread).symm

end Tollgate.Json
