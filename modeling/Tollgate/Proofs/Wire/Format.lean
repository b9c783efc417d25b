import Tollgate.Proofs.Ledger.Outcome
import Tollgate.Proofs.Wire.Padding
/-! Laws of binary formats: what is written is read back in front of any bytes, and what is read was
written, but for padding. Each way to make a format from others keeps the laws. -/
namespace Tollgate

open Call

namespace Format

variable {α β : Type} {f : Format α} {g : Format β} {P : α → Prop} {Q : β → Prop}

/-- The format carries exactly the values with a property. -/
structure Lawful (f : Format α) (P : α → Prop) : Prop where
  read_write : ∀ {a}, P a → ∀ rest, f.read (f.write a ++ rest) = .ok (a, rest)
  of_read : ∀ {bs a rest}, f.read bs = .ok (a, rest) →
    P a ∧ ∃ used, bs = used ++ rest ∧ Padded (f.write a) used

namespace Lawful

theorem congr {P' : α → Prop} (h : f.Lawful P) (hP : ∀ a, P a ↔ P' a) : f.Lawful P' := by
  have he : P = P' := funext fun a => propext (hP a)
  rwa [← he]

/-- The bytes of two values are told apart whatever follows them. -/
theorem write_append_inj (h : f.Lawful P) {a b : α} {xs ys : Bytes} (ha : P a) (hb : P b)
    (he : f.write a ++ xs = f.write b ++ ys) : a = b ∧ xs = ys := by
  have hread := h.read_write ha xs
  rw [he, h.read_write hb ys] at hread
  exact ⟨congrArg Prod.fst (Except.ok.inj hread).symm, congrArg Prod.snd (Except.ok.inj hread).symm⟩

theorem decode_write (h : f.Lawful P) {a : α} (ha : P a) (rest : Bytes) :
    f.decode (f.write a ++ rest) = .ok a := by
  rw [decode, h.read_write ha]
  rfl

theorem of_decode (h : f.Lawful P) {bs : Bytes} {a : α} (hd : f.decode bs = .ok a) :
    P a ∧ ∃ used rest, bs = used ++ rest ∧ Padded (f.write a) used := by
  unfold decode at hd
  cases hr : f.read bs with
  | error e => simp [hr, Except.map] at hd
  | ok p =>
    obtain ⟨b, rest⟩ := p
    obtain rfl : b = a := by simpa [hr, Except.map] using hd
    obtain ⟨hb, used, hbs, hp⟩ := h.of_read hr
    exact ⟨hb, used, rest, hbs, hp⟩

end Lawful

theorem splitBytes_append (xs rest : Bytes) : splitBytes xs.length (xs ++ rest) = .ok (xs, rest) := by
  simp [splitBytes]

theorem splitBytes_eq_ok {n : Nat} {bs front rest : Bytes}
    (h : splitBytes n bs = .ok (front, rest)) : front.length = n ∧ bs = front ++ rest := by
  unfold splitBytes at h
  split at h
  next xs ys hs =>
  split at h
  · next hl =>
    obtain ⟨rfl, rfl⟩ := Prod.mk.inj (Except.ok.inj h)
    rw [List.splitAt_eq] at hs
    obtain ⟨rfl, rfl⟩ := Prod.mk.inj hs
    exact ⟨hl, (List.take_append_drop n bs).symm⟩
  · cases h

theorem number_read_append {n v : Nat} (hv : v < 256 ^ n) (rest : Bytes) :
    (number n).read ((number n).write v ++ rest) = .ok (v, rest) := by
  have hs := splitBytes_append (littleEndian n v) rest
  rw [length_littleEndian] at hs
  change (splitBytes n (littleEndian n v ++ rest)).map _ = _
  rw [hs, Except.map, ofLittleEndian_littleEndian, Nat.mod_eq_of_lt hv]

theorem number_of_read {n v : Nat} {bs rest : Bytes} (h : (number n).read bs = .ok (v, rest)) :
    v < 256 ^ n ∧ bs = (number n).write v ++ rest := by
  change (splitBytes n bs).map _ = _ at h
  cases hs : splitBytes n bs with
  | error e => simp [hs, Except.map] at h
  | ok p =>
    rw [hs] at h
    obtain ⟨rfl, rfl⟩ := Prod.mk.inj (Except.ok.inj h)
    obtain ⟨hl, hbs⟩ := splitBytes_eq_ok hs
    refine ⟨hl ▸ ofLittleEndian_lt p.1, ?_⟩
    change bs = littleEndian n _ ++ p.2
    rw [← hl, littleEndian_ofLittleEndian]
    exact hbs

theorem lawful_number (n : Nat) : (number n).Lawful (· < 256 ^ n) where
  read_write hv rest := number_read_append hv rest
  of_read h := ⟨(number_of_read h).1, _, (number_of_read h).2, .same _⟩

namespace Lawful

theorem convert (h : f.Lawful P) {ofValue : α → β} {toValue : β → α}
    (hto : ∀ b, ofValue (toValue b) = b) (hof : ∀ a, P a → toValue (ofValue a) = a) :
    (f.convert ofValue toValue).Lawful fun b => P (toValue b) where
  read_write {b} hb rest := by
    change (f.read (f.write (toValue b) ++ rest)).map _ = _
    rw [h.read_write hb, Except.map, hto]
  of_read {bs b rest} hr := by
    change (f.read bs).map _ = _ at hr
    cases hs : f.read bs with
    | error e => simp [hs, Except.map] at hr
    | ok p =>
      rw [hs] at hr
      obtain ⟨rfl, rfl⟩ := Prod.mk.inj (Except.ok.inj hr)
      obtain ⟨ha, used, hbs, hp⟩ := h.of_read hs
      change P (toValue (ofValue p.1)) ∧ ∃ used, _ ∧ Padded (f.write (toValue (ofValue p.1))) used
      rw [hof p.1 ha]
      exact ⟨ha, used, hbs, hp⟩

theorem refine (h : f.Lawful P) {ofValue? : α → Except WireError β} {toValue : β → α}
    (hto : ∀ b, ofValue? (toValue b) = .ok b) (hof : ∀ {a b}, ofValue? a = .ok b → toValue b = a) :
    (f.refine ofValue? toValue).Lawful fun b => P (toValue b) where
  read_write {b} hb rest := by
    refine except_bind_eq_ok_iff.2 ⟨_, h.read_write hb rest, ?_⟩
    exact except_bind_eq_ok_iff.2 ⟨b, hto b, rfl⟩
  of_read {bs b rest} hr := by
    obtain ⟨⟨a, tail⟩, ha, hr⟩ := except_bind_eq_ok_iff.1 hr
    obtain ⟨b', hb, hr⟩ := except_bind_eq_ok_iff.1 hr
    obtain ⟨rfl, rfl⟩ := Prod.mk.inj (Except.ok.inj hr)
    obtain rfl := hof hb
    exact h.of_read ha

theorem pair (hf : f.Lawful P) (hg : g.Lawful Q) :
    (f.pair g).Lawful fun p => P p.1 ∧ Q p.2 where
  read_write {p} hp rest := by
    change (f.pair g).read (f.write p.1 ++ g.write p.2 ++ rest) = _
    rw [List.append_assoc]
    refine except_bind_eq_ok_iff.2 ⟨_, hf.read_write hp.1 _, ?_⟩
    exact except_bind_eq_ok_iff.2 ⟨_, hg.read_write hp.2 rest, rfl⟩
  of_read {bs p rest} hr := by
    obtain ⟨⟨a, middle⟩, ha, hr⟩ := except_bind_eq_ok_iff.1 hr
    obtain ⟨⟨b, tail⟩, hb, hr⟩ := except_bind_eq_ok_iff.1 hr
    obtain ⟨rfl, rfl⟩ := Prod.mk.inj (Except.ok.inj hr)
    obtain ⟨hPa, used, rfl, hused⟩ := hf.of_read ha
    obtain ⟨hQb, used', rfl, hused'⟩ := hg.of_read hb
    exact ⟨⟨hPa, hQb⟩, used ++ used', (List.append_assoc _ _ _).symm, hused.append hused'⟩

end Lawful

theorem lawful_word8 : word8.Lawful fun _ => True :=
  ((lawful_number 1).convert (fun b => UInt8.ofNat_toNat)
    fun n hn => UInt8.toNat_ofNat_of_lt' (by omega)).congr
    fun b => ⟨fun _ => trivial, fun _ => b.toNat_lt⟩

theorem lawful_word32 : word32.Lawful fun _ => True :=
  ((lawful_number 4).convert (fun b => UInt32.ofNat_toNat)
    fun n hn => UInt32.toNat_ofNat_of_lt' (by omega)).congr
    fun b => ⟨fun _ => trivial, fun _ => b.toNat_lt⟩

theorem lawful_word64 : word64.Lawful fun _ => True :=
  ((lawful_number 8).convert (fun b => UInt64.ofNat_toNat)
    fun n hn => UInt64.toNat_ofNat_of_lt' (by omega)).congr
    fun b => ⟨fun _ => trivial, fun _ => b.toNat_lt⟩

theorem lawful_bool : bool.Lawful fun _ => True := by
  refine (lawful_word8.refine (fun b => ?_) fun {a b} h => ?_).congr fun _ => Iff.rfl
  · cases b <;> rfl
  · split at h
    · next ha =>
      obtain rfl := Except.ok.inj h
      exact ha.symm
    · split at h
      · next ha =>
        obtain rfl := Except.ok.inj h
        exact ha.symm
      · cases h

theorem word8_read_eq_ok_iff {bs rest : Bytes} {b : UInt8} :
    word8.read bs = .ok (b, rest) ↔ bs = b :: rest := by
  cases bs with
  | nil =>
    simp only [reduceCtorEq, iff_false]
    exact nofun
  | cons c cs =>
    have hw : word8.write c = [c] := congrArg (· :: []) UInt8.ofNat_toNat
    have hc := lawful_word8.read_write (a := c) trivial cs
    rw [hw, List.singleton_append] at hc
    rw [hc, Except.ok.injEq, Prod.mk.injEq, List.cons.injEq]

theorem Lawful.option (h : f.Lawful P) : f.option.Lawful fun o => ∀ a ∈ o, P a where
  read_write {o} ho rest := by
    cases o with
    | none => exact except_bind_eq_ok_iff.2 ⟨_, word8_read_eq_ok_iff.2 rfl, rfl⟩
    | some a =>
      refine except_bind_eq_ok_iff.2 ⟨_, word8_read_eq_ok_iff.2 rfl, ?_⟩
      exact except_bind_eq_ok_iff.2 ⟨_, h.read_write (ho a rfl) rest, rfl⟩
  of_read {bs o rest} hr := by
    obtain ⟨⟨tag, middle⟩, htag, hcontent⟩ := except_bind_eq_ok_iff.1 hr
    obtain rfl := word8_read_eq_ok_iff.1 htag
    dsimp only at hcontent
    split at hcontent
    · next h0 =>
      obtain ⟨rfl, rfl⟩ := Prod.mk.inj (Except.ok.inj hcontent)
      rw [h0]
      exact ⟨nofun, [0], rfl, .same _⟩
    · split at hcontent
      · next h1 =>
        obtain ⟨⟨a, tail⟩, ha, hcontent⟩ := except_bind_eq_ok_iff.1 hcontent
        obtain ⟨rfl, rfl⟩ := Prod.mk.inj (Except.ok.inj hcontent)
        obtain ⟨hPa, used, rfl, hused⟩ := h.of_read ha
        rw [h1]
        refine ⟨fun b hb => Option.some.inj hb ▸ hPa, 1 :: used, rfl, ?_⟩
        exact (Padded.same [1]).append hused
      · cases hcontent

theorem lawful_fixedBytes (n : Nat) : (fixedBytes n).Lawful fun _ => True where
  read_write {b} _ rest := by
    have hs := splitBytes_append b.toList rest
    rw [b.length_eq] at hs
    refine except_bind_eq_ok_iff.2 ⟨_, hs, ?_⟩
    simp only [FixedBytes.ofList?_toList]
    rfl
  of_read {bs b rest} hr := by
    obtain ⟨⟨front, tail⟩, hs, hr⟩ := except_bind_eq_ok_iff.1 hr
    obtain ⟨-, hbs⟩ := splitBytes_eq_ok hs
    dsimp only at hr
    split at hr
    · next c hc =>
      obtain ⟨rfl, rfl⟩ := Prod.mk.inj (Except.ok.inj hr)
      refine ⟨trivial, front, hbs, ?_⟩
      rw [← FixedBytes.toList_of_ofList? hc]
      exact .same _
    · cases hr

theorem bytes_of_read {bs xs rest : Bytes} (h : bytes.read bs = .ok (xs, rest)) :
    xs.length < 2 ^ 64 ∧ bs = bytes.write xs ++ rest := by
  obtain ⟨⟨n, tail⟩, hn, hs⟩ := except_bind_eq_ok_iff.1 h
  obtain ⟨hlt, rfl⟩ := number_of_read hn
  obtain ⟨rfl, rfl⟩ := splitBytes_eq_ok hs
  exact ⟨hlt, (List.append_assoc _ _ _).symm⟩

theorem lawful_bytes : bytes.Lawful fun xs => xs.length < 2 ^ 64 where
  read_write {xs} hxs rest := by
    change bytes.read (length.write xs.length ++ xs ++ rest) = _
    rw [List.append_assoc]
    exact except_bind_eq_ok_iff.2 ⟨_, number_read_append hxs (xs ++ rest), splitBytes_append xs rest⟩
  of_read h := ⟨(bytes_of_read h).1, _, (bytes_of_read h).2, .same _⟩

/-- A value written as a byte string of its own is told apart too, however long its bytes are. -/
theorem Lawful.bytes_write_append_inj (h : f.Lawful P) {a b : α} {xs ys : Bytes} (ha : P a)
    (hb : P b) (he : bytes.write (f.write a) ++ xs = bytes.write (f.write b) ++ ys) :
    a = b ∧ xs = ys := by
  change littleEndian 8 _ ++ f.write a ++ xs = littleEndian 8 _ ++ f.write b ++ ys at he
  rw [List.append_assoc, List.append_assoc] at he
  exact h.write_append_inj ha hb
    (List.append_inj_right he (by rw [length_littleEndian, length_littleEndian]))

theorem string_of_read {bs rest : Bytes} {s : String} (h : string.read bs = .ok (s, rest)) :
    (utf8 s).length < 2 ^ 64 ∧ bs = string.write s ++ rest := by
  obtain ⟨⟨xs, tail⟩, hxs, h⟩ := except_bind_eq_ok_iff.1 h
  obtain ⟨t, ht, h⟩ := except_bind_eq_ok_iff.1 h
  obtain ⟨rfl, rfl⟩ := Prod.mk.inj (Except.ok.inj h)
  dsimp only at ht
  split at ht
  · next s hs =>
    obtain rfl := Except.ok.inj ht
    obtain rfl := utf8_of_text? hs
    exact bytes_of_read hxs
  · cases ht

theorem lawful_string : string.Lawful fun s => (utf8 s).length < 2 ^ 64 where
  read_write {s} hs rest := by
    refine except_bind_eq_ok_iff.2 ⟨_, lawful_bytes.read_write hs rest, ?_⟩
    simp only [text?_utf8]
    rfl
  of_read h := ⟨(string_of_read h).1, _, (string_of_read h).2, .same _⟩

theorem readMany_append (h : f.Lawful P) {as : List α} (has : ∀ a ∈ as, P a) (rest : Bytes) :
    readMany f as.length (as.flatMap f.write ++ rest) = .ok (as, rest) := by
  induction as with
  | nil => rfl
  | cons a as ih =>
    rw [List.flatMap_cons, List.append_assoc]
    refine except_bind_eq_ok_iff.2 ⟨_, h.read_write (has a List.mem_cons_self) _, ?_⟩
    exact except_bind_eq_ok_iff.2
      ⟨_, ih fun b hb => has b (List.mem_cons_of_mem a hb), rfl⟩

theorem of_readMany (h : f.Lawful P) {n : Nat} {bs rest : Bytes} {as : List α}
    (hr : readMany f n bs = .ok (as, rest)) : as.length = n ∧ (∀ a ∈ as, P a) ∧
      ∃ used, bs = used ++ rest ∧ Padded (as.flatMap f.write) used := by
  induction n generalizing bs as with
  | zero =>
    obtain ⟨rfl, rfl⟩ := Prod.mk.inj (Except.ok.inj hr)
    exact ⟨rfl, nofun, [], rfl, .same _⟩
  | succ n ih =>
    obtain ⟨⟨a, middle⟩, ha, hr⟩ := except_bind_eq_ok_iff.1 hr
    obtain ⟨⟨as', tail⟩, has, hr⟩ := except_bind_eq_ok_iff.1 hr
    obtain ⟨rfl, rfl⟩ := Prod.mk.inj (Except.ok.inj hr)
    obtain ⟨hPa, used, rfl, hused⟩ := h.of_read ha
    obtain ⟨hlength, hPas, used', rfl, hused'⟩ := ih has
    refine ⟨congrArg (· + 1) hlength, List.forall_mem_cons.2 ⟨hPa, hPas⟩, used ++ used',
      (List.append_assoc _ _ _).symm, ?_⟩
    rw [List.flatMap_cons]
    exact hused.append hused'

theorem Lawful.list (h : f.Lawful P) :
    f.list.Lawful fun as => as.length < 2 ^ 64 ∧ ∀ a ∈ as, P a where
  read_write {as} has rest := by
    change f.list.read (length.write as.length ++ as.flatMap f.write ++ rest) = _
    rw [List.append_assoc]
    exact except_bind_eq_ok_iff.2
      ⟨_, number_read_append has.1 _, readMany_append h has.2 rest⟩
  of_read {bs as rest} hr := by
    obtain ⟨⟨n, tail⟩, hn, hmany⟩ := except_bind_eq_ok_iff.1 hr
    obtain ⟨hlt, rfl⟩ := number_of_read hn
    obtain ⟨rfl, hP, used, rfl, hused⟩ := of_readMany h hmany
    refine ⟨⟨hlt, hP⟩, length.write as.length ++ used, (List.append_assoc _ _ _).symm, ?_⟩
    exact (Padded.same _).append hused

theorem list_write_congr {g : Format α} (as : List α) (h : ∀ a ∈ as, f.write a = g.write a) :
    f.list.write as = g.list.write as := by
  change length.write as.length ++ as.flatMap f.write = length.write as.length ++ as.flatMap g.write
  rw [List.flatMap_congr h]

/-- A member takes up less room than a list with it. -/
theorem length_write_lt_list {a : α} {as : List α} (h : a ∈ as) :
    (f.write a).length < (f.list.write as).length := by
  have hle : (f.write a).length ≤ (as.flatMap f.write).length :=
    (List.sublist_flatten_of_mem (List.mem_map_of_mem h)).length_le
  change _ < (littleEndian 8 as.length ++ as.flatMap f.write).length
  rw [List.length_append, length_littleEndian]
  omega

/-- An alternative whose content is found again in the values made of it. -/
structure Alternative.Lawful (c : Alternative α) (P : α → Prop) : Prop where
  content?_make : ∀ b, c.content? (c.make b) = some b
  format : c.format.Lawful fun b => P (c.make b)

variable {cases : List (Alternative α)}

/-- A value is written with the alternative it was made by, if no earlier one claims it. -/
theorem writeAlternative_make (hc : ∀ c ∈ cases, ∀ b, c.content? (c.make b) = some b)
    (hapart : cases.Pairwise fun c d => ∀ b, c.content? (d.make b) = none) {i : Nat}
    {c : Alternative α} (hi : cases[i]? = some c) (b : c.Content) (k : Nat) :
    writeAlternative (c.make b) k cases = (number 4).write (k + i) ++ c.format.write b := by
  induction cases generalizing i k with
  | nil => cases hi
  | cons d ds ih =>
    rw [List.pairwise_cons] at hapart
    rw [List.forall_mem_cons] at hc
    cases i with
    | zero =>
      obtain rfl := Option.some.inj hi
      simp [writeAlternative, hc.1]
    | succ i =>
      rw [List.getElem?_cons_succ] at hi
      have hnone : d.content? (c.make b) = none := hapart.1 c (List.mem_of_getElem? hi) b
      simp only [writeAlternative, hnone]
      rw [ih hc.2 hapart.2 hi, Nat.add_assoc, Nat.add_comm 1 i]

theorem lawful_alternatives (hc : ∀ c ∈ cases, c.Lawful P)
    (hapart : cases.Pairwise fun c d => ∀ b, c.content? (d.make b) = none)
    (hcovered : ∀ a, ∃ c ∈ cases, ∃ b, c.make b = a) (hn : cases.length ≤ 256 ^ 4) :
    (alternatives cases).Lawful P := by
  have hwrite {i : Nat} {c : Alternative α} (hi : cases[i]? = some c) (b : c.Content) :
      (alternatives cases).write (c.make b) = (number 4).write i ++ c.format.write b := by
    have h := writeAlternative_make (fun c hm => (hc c hm).content?_make) hapart hi b 0
    rwa [Nat.zero_add] at h
  constructor
  · intro a ha rest
    obtain ⟨c, hm, b, rfl⟩ := hcovered a
    obtain ⟨i, hlt, hi⟩ := List.mem_iff_getElem.1 hm
    have hi : cases[i]? = some c := List.getElem?_eq_some_iff.2 ⟨hlt, hi⟩
    rw [hwrite hi b, List.append_assoc]
    refine except_bind_eq_ok_iff.2 ⟨_, number_read_append (by omega) _, ?_⟩
    simp only [hi]
    exact except_bind_eq_ok_iff.2 ⟨_, (hc c hm).format.read_write ha rest, rfl⟩
  · intro bs a rest hr
    obtain ⟨⟨i, tail⟩, hnumber, hr⟩ := except_bind_eq_ok_iff.1 hr
    dsimp only at hr
    split at hr
    · cases hr
    · next c hi =>
      obtain ⟨⟨b, tail'⟩, hb, hr⟩ := except_bind_eq_ok_iff.1 hr
      obtain ⟨rfl, rfl⟩ := Prod.mk.inj (Except.ok.inj hr)
      obtain ⟨-, rfl⟩ := number_of_read hnumber
      obtain ⟨hP, used, rfl, hused⟩ := (hc c (List.mem_of_getElem? hi)).format.of_read hb
      refine ⟨hP, (number 4).write i ++ used, (List.append_assoc _ _ _).symm, ?_⟩
      rw [hwrite hi b]
      exact (Padded.same _).append hused

theorem Alternative.lawful_unit [DecidableEq α] {a : α} (ha : P a) :
    (Alternative.unit a).Lawful P where
  content?_make _ := if_pos rfl
  format := ⟨fun _ _ => rfl, fun {bs _ rest} h => by
    obtain rfl : bs = rest := congrArg Prod.snd (Except.ok.inj h)
    exact ⟨ha, [], rfl, .same _⟩⟩

/-- A way to make the format of nested values from the format of their members, which it uses on the
members of a value alone. -/
structure Nesting (node : Format α → Format α) (members : α → List α) (Flat : α → Prop) : Prop where
  lawful : ∀ {m : Format α} {P : α → Prop}, m.Lawful P →
    (node m).Lawful fun a => Flat a ∧ ∀ c ∈ members a, P c
  congr : ∀ {m n : Format α} {a : α}, (∀ c ∈ members a, m.write c = n.write c) →
    (node m).write a = (node n).write a
  length_lt : ∀ {m : Format α} {a c : α}, c ∈ members a →
    (m.write c).length < ((node m).write a).length

/-- Values that nest less than a number of levels deep, with a property on every level. -/
def NestsWithin (members : α → List α) (Flat : α → Prop) : Nat → α → Prop
  | 0, _ => False
  | n+1, a => Flat a ∧ ∀ c ∈ members a, NestsWithin members Flat n c

namespace Nesting

variable {node : Format α → Format α} {members : α → List α} {Flat : α → Prop}
  {within : Nat → Format α}

theorem lawful_within (h : Nesting node members Flat) (h0 : ∀ bs p, (within 0).read bs ≠ .ok p)
    (hs : ∀ n, within (n + 1) = node (within n)) (n : Nat) :
    (within n).Lawful (NestsWithin members Flat n) := by
  induction n with
  | zero => exact ⟨fun h => h.elim, fun h => absurd h (h0 _ _)⟩
  | succ n ih =>
    rw [hs]
    exact h.lawful ih

/-- Room for more levels does not change what is written. -/
theorem write_within_eq (h : Nesting node members Flat)
    (hs : ∀ n, within (n + 1) = node (within n)) {m n : Nat} {a : α}
    (hm : NestsWithin members Flat m a) (hn : NestsWithin members Flat n a) :
    (within m).write a = (within n).write a := by
  induction m generalizing n a with
  | zero => exact hm.elim
  | succ m ih =>
    cases n with
    | zero => exact hn.elim
    | succ n =>
      rw [hs, hs]
      exact h.congr fun c hc => ih (hm.2 c hc) (hn.2 c hc)

end Nesting

section Hereditary

variable {members : α → List α} {Flat : α → Prop}
  (hP : ∀ a, P a ↔ Flat a ∧ ∀ c ∈ members a, P c)

include hP

theorem of_nestsWithin {n : Nat} {a : α} (h : NestsWithin members Flat n a) : P a := by
  induction n generalizing a with
  | zero => exact h.elim
  | succ n ih => exact (hP a).2 ⟨h.1, fun c hc => ih (h.2 c hc)⟩

/-- A measure that falls from a value to its members bounds the nesting. -/
theorem nestsWithin_of_lt {μ : α → Nat} (hμ : ∀ a, P a → ∀ c ∈ members a, μ c < μ a) {n : Nat}
    {a : α} (ha : P a) (hn : μ a < n) : NestsWithin members Flat n a := by
  induction n generalizing a with
  | zero => exact absurd hn (Nat.not_lt_zero _)
  | succ n ih =>
    obtain ⟨hflat, hmembers⟩ := (hP a).1 ha
    refine ⟨hflat, fun c hc => ih (hmembers c hc) ?_⟩
    have hlt := hμ a ha c hc
    omega

/-- Every level takes up bytes, so a reader with room for as many levels as there are bytes reads
all values back. -/
theorem Nesting.lawful_format {node : Format α → Format α} {within : Nat → Format α}
    (h : Nesting node members Flat) (h0 : ∀ bs p, (within 0).read bs ≠ .ok p)
    (hs : ∀ n, within (n + 1) = node (within n)) {depth : α → Nat}
    (hdepth : ∀ a, ∀ c ∈ members a, depth c < depth a) :
    Lawful ⟨fun a => (within (depth a + 1)).write a, fun bs => (within (bs.length + 1)).read bs⟩
      P := by
  have hnest {a : α} {n : Nat} (ha : P a) (hn : depth a < n) : NestsWithin members Flat n a :=
    nestsWithin_of_lt hP (fun a _ => hdepth a) ha hn
  have hlength (a : α) (ha : P a) : ∀ c ∈ members a,
      ((within (depth c + 1)).write c).length < ((within (depth a + 1)).write a).length := by
    intro c hc
    have hPc := ((hP a).1 ha).2 c hc
    have hlt := hdepth a c hc
    rw [h.write_within_eq hs (hnest hPc (Nat.lt_succ_self _)) (hnest hPc hlt), hs]
    exact h.length_lt hc
  constructor
  · intro a ha rest
    have hwide : NestsWithin members Flat
        (((within (depth a + 1)).write a ++ rest).length + 1) a := by
      refine nestsWithin_of_lt hP (μ := fun a => ((within (depth a + 1)).write a).length) hlength
        ha ?_
      rw [List.length_append]
      omega
    have hread := (h.lawful_within h0 hs _).read_write hwide rest
    rwa [h.write_within_eq hs hwide (hnest ha (Nat.lt_succ_self _))] at hread
  · intro bs a rest hr
    obtain ⟨hwide, used, hbs, hused⟩ := (h.lawful_within h0 hs _).of_read hr
    have ha : P a := of_nestsWithin hP hwide
    rw [h.write_within_eq hs hwide (hnest ha (Nat.lt_succ_self _))] at hused
    exact ⟨ha, used, hbs, hused⟩

end Hereditary
end Format
end Tollgate
