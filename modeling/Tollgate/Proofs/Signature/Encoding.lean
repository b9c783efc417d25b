import Tollgate.Proofs.Signature.Singles
import Tollgate.Proofs.Wire.Format
import Tollgate.Proofs.Wire.Length
/-! Raw signatures. A signature is read back from the bytes it is written as, and what is read has the
shape that the mode information states. Bytes behind the parts of a threshold signature are not read: two
raw signatures that are read as the same differ in such bytes only. -/
namespace Tollgate

open Call

namespace Format

variable {α : Type} {f : Format α} {P : α → Prop}

/-- What is read are the very bytes that are written. -/
def Exact (f : Format α) : Prop := ∀ {bs a rest}, f.read bs = .ok (a, rest) → bs = f.write a ++ rest

theorem Exact.readMany (h : f.Exact) {n : Nat} {bs rest : Bytes} {as : List α}
    (hr : readMany f n bs = .ok (as, rest)) : bs = as.flatMap f.write ++ rest := by
  induction n generalizing bs as with
  | zero =>
    obtain ⟨rfl, rfl⟩ := Prod.mk.inj (Except.ok.inj hr)
    rfl
  | succ n ih =>
    obtain ⟨⟨a, middle⟩, ha, hr⟩ := except_bind_eq_ok_iff.1 hr
    obtain ⟨⟨as', tail⟩, has, hr⟩ := except_bind_eq_ok_iff.1 hr
    obtain ⟨rfl, rfl⟩ := Prod.mk.inj (Except.ok.inj hr)
    obtain rfl := h ha
    rw [ih has, List.flatMap_cons, List.append_assoc]

theorem Exact.list (h : f.Exact) (hf : f.Lawful P) : f.list.Exact := by
  intro bs as rest hr
  obtain ⟨⟨n, tail⟩, hn, hmany⟩ := except_bind_eq_ok_iff.1 hr
  obtain ⟨-, rfl⟩ := number_of_read hn
  obtain ⟨rfl, -, -⟩ := of_readMany hf hmany
  rw [h.readMany hmany]
  exact (List.append_assoc _ _ _).symm

end Format

namespace SignatureData

mutual
/-- The modes and the bits of a signature. -/
def info : SignatureData → ModeInfo
  | .single mode _ => .single mode
  | .multi bits signatures => .multi bits (infos signatures)
def infos : List SignatureData → List ModeInfo
  | [] => []
  | s :: ss => info s :: infos ss
end

mutual
/-- The bytes of a signature, with the parts joined on every level. -/
def raw : SignatureData → Bytes
  | .single _ signature => signature
  | .multi _ signatures => encodeParts (raws signatures)
def raws : List SignatureData → List Bytes
  | [] => []
  | s :: ss => raw s :: raws ss
end

mutual
/-- On every level there are as many signatures as bits that are set. -/
def Counted : SignatureData → Prop
  | .single _ _ => True
  | .multi bits signatures => signatures.length = bits.count true ∧ CountedAll signatures
def CountedAll : List SignatureData → Prop
  | [] => True
  | s :: ss => Counted s ∧ CountedAll ss
end

mutual
/-- The same raw signatures, except for bytes behind the parts of threshold signatures. -/
def SameButTrailing : ModeInfo → Bytes → Bytes → Prop
  | .single _, raw, raw' => raw = raw'
  | .multi _ infos, raw, raw' => ∃ parts parts' rest rest', raw = encodeParts parts ++ rest ∧
      raw' = encodeParts parts' ++ rest' ∧ SamePartsButTrailing infos parts parts'
def SamePartsButTrailing : List ModeInfo → List Bytes → List Bytes → Prop
  | [], [], [] => True
  | info :: infos, part :: parts, part' :: parts' =>
    SameButTrailing info part part' ∧ SamePartsButTrailing infos parts parts'
  | _, _, _ => False
end

section Parts

variable {bs : Bytes} {parts : List Bytes}

theorem length_infos (ss : List SignatureData) : (infos ss).length = ss.length := by
  induction ss with
  | nil => rfl
  | cons s ss ih => rw [infos, List.length_cons, List.length_cons, ih]

theorem length_raws (ss : List SignatureData) : (raws ss).length = ss.length := by
  induction ss with
  | nil => rfl
  | cons s ss ih => rw [raws, List.length_cons, List.length_cons, ih]

theorem length_encodeParts (parts : List Bytes) :
    (encodeParts parts).length = 8 + (parts.map fun part => 8 + part.length).sum := by
  change (Format.bytes.list.write parts).length = _
  rw [Format.length_write_list]
  simp only [Format.length_write_bytes]

/-- The number of parts and the size of each fit into eight bytes. -/
def PartsFit (parts : List Bytes) : Prop :=
  parts.length < 2 ^ 64 ∧ ∀ part ∈ parts, part.length < 2 ^ 64

theorem partsFit_of_length (h : (encodeParts parts).length < 2 ^ 64) : PartsFit parts := by
  have hcount : parts.length ≤ (parts.map fun part => 8 + part.length).sum := by
    clear h
    induction parts with
    | nil => exact Nat.le_refl _
    | cons part parts ih =>
      rw [List.length_cons, List.map_cons, List.sum_cons]
      omega
  refine ⟨?_, fun part hpart => ?_⟩
  · rw [length_encodeParts] at h
    omega
  · have hlt : (Format.bytes.write part).length < (encodeParts parts).length :=
      Format.length_write_lt_list hpart
    rw [Format.length_write_bytes] at hlt
    omega

/-- The parts are what the bytes begin with. -/
theorem decode_parts_eq_ok_iff :
    partsFormat.decode bs = .ok parts ↔ PartsFit parts ∧ ∃ rest, bs = encodeParts parts ++ rest := by
  have hlawful := Format.lawful_bytes.list
  constructor
  · intro h
    refine ⟨(hlawful.of_decode h).1, ?_⟩
    cases hr : Format.bytes.list.read bs with
    | error e => simp [Format.decode, partsFormat, hr, Except.map] at h
    | ok p =>
      obtain rfl : p.1 = parts := by simpa [Format.decode, partsFormat, hr, Except.map] using h
      have hexact : Format.bytes.list.Exact :=
        Format.Exact.list (fun h => (Format.bytes_of_read h).2) Format.lawful_bytes
      exact ⟨p.2, hexact hr⟩
  · rintro ⟨hfit, rest, rfl⟩
    exact hlawful.decode_write hfit rest

end Parts

/-- A threshold signature is read part by part, if there are as many parts as modes and as bits that are
set. -/
theorem decode_multi_eq_ok_iff {bits : List Bool} {infos : List ModeInfo} {raw : Bytes}
    {data : SignatureData} : decode (.multi bits infos) raw = .ok data ↔
      ∃ parts signatures, partsFormat.decode raw = .ok parts ∧ parts.length = infos.length ∧
        parts.length = bits.count true ∧ decodeParts infos parts = .ok signatures ∧
        data = .multi bits signatures := by
  unfold decode
  cases hread : partsFormat.decode raw with
  | error e => simp
  | ok parts =>
    dsimp only
    split
    · next hl =>
      constructor
      · intro h
        cases h
      · rintro ⟨parts', _, hparts, hinfos, hbits, -⟩
        obtain rfl := Except.ok.inj hparts
        exact absurd hl (not_or.2 ⟨not_not.2 hinfos, not_not.2 hbits⟩)
    · next hl =>
      rw [not_or, not_not, not_not] at hl
      rw [except_bind_eq_ok_iff]
      constructor
      · rintro ⟨signatures, hsignatures, h⟩
        exact ⟨parts, signatures, rfl, hl.1, hl.2, hsignatures, (Except.ok.inj h).symm⟩
      · rintro ⟨parts', signatures, hparts, -, -, hsignatures, rfl⟩
        obtain rfl := Except.ok.inj hparts
        exact ⟨signatures, hsignatures, rfl⟩

theorem decodeParts_cons_eq_ok_iff {info : ModeInfo} {infos : List ModeInfo} {part : Bytes}
    {parts : List Bytes} {signatures : List SignatureData} :
    decodeParts (info :: infos) (part :: parts) = .ok signatures ↔ ∃ s ss,
      decode info part = .ok s ∧ decodeParts infos parts = .ok ss ∧ signatures = s :: ss := by
  rw [decodeParts, except_bind_eq_ok_iff]
  constructor
  · rintro ⟨s, hs, h⟩
    obtain ⟨ss, hss, h⟩ := except_bind_eq_ok_iff.1 h
    exact ⟨s, ss, hs, hss, (Except.ok.inj h).symm⟩
  · rintro ⟨s, ss, hs, hss, rfl⟩
    exact ⟨s, hs, except_bind_eq_ok_iff.2 ⟨ss, hss, rfl⟩⟩

mutual
/-- A signature is read back from its own bytes. -/
theorem decode_raw : (data : SignatureData) → data.Counted → data.raw.length < 2 ^ 64 →
    decode data.info data.raw = .ok data
  | .single _ _, _, _ => rfl
  | .multi bits ss, hcounted, hlength => by
    have hfit : PartsFit (raws ss) := partsFit_of_length hlength
    refine decode_multi_eq_ok_iff.2 ⟨raws ss, ss, ?_, ?_, ?_, ?_, rfl⟩
    · exact decode_parts_eq_ok_iff.2 ⟨hfit, [], (List.append_nil _).symm⟩
    · rw [length_raws, length_infos]
    · rw [length_raws, hcounted.1]
    · exact decodeParts_raws ss hcounted.2 hfit.2
theorem decodeParts_raws : (ss : List SignatureData) → CountedAll ss →
    (∀ part ∈ raws ss, part.length < 2 ^ 64) → decodeParts (infos ss) (raws ss) = .ok ss
  | [], _, _ => rfl
  | s :: ss, hcounted, hlength => by
    rw [raws, List.forall_mem_cons] at hlength
    exact decodeParts_cons_eq_ok_iff.2 ⟨s, ss, decode_raw s hcounted.1 hlength.1,
      decodeParts_raws ss hcounted.2 hlength.2, rfl⟩
end

mutual
/-- What is read has the modes and bits that are stated; what has not that shape cannot be read. -/
theorem decode_cases : (info : ModeInfo) → (raw : Bytes) →
    (∃ data, decode info raw = .ok data ∧ data.info = info ∧ data.Counted) ∨
      decode info raw = .error .invalidFormat
  | .single mode, raw => .inl ⟨.single mode raw, rfl, rfl, trivial⟩
  | .multi bits infos, raw => by
    cases hread : partsFormat.decode raw with
    | error e =>
      right
      unfold decode
      rw [hread]
    | ok parts =>
      by_cases hl : parts.length ≠ infos.length ∨ parts.length ≠ bits.count true
      · right
        unfold decode
        rw [hread]
        exact if_pos hl
      · obtain ⟨hinfos, hbits⟩ : parts.length = infos.length ∧ parts.length = bits.count true := by
          simpa only [not_or, not_not] using hl
        obtain ⟨ss, hss, hshape, hcounted⟩ | herror := decodeParts_cases infos parts hinfos
        · left
          refine ⟨.multi bits ss, ?_, congrArg (ModeInfo.multi bits) hshape, ?_, hcounted⟩
          · exact decode_multi_eq_ok_iff.2 ⟨parts, ss, hread, hinfos, hbits, hss, rfl⟩
          · rw [← length_infos, hshape, ← hinfos, hbits]
        · right
          unfold decode
          simp only [hread, if_neg hl, herror]
          rfl
theorem decodeParts_cases : (infos : List ModeInfo) → (parts : List Bytes) →
    parts.length = infos.length →
    (∃ ss, decodeParts infos parts = .ok ss ∧ SignatureData.infos ss = infos ∧ CountedAll ss) ∨
      decodeParts infos parts = .error .invalidFormat
  | [], [], _ => .inl ⟨[], rfl, rfl, trivial⟩
  | [], _ :: _, hl => nomatch hl
  | _ :: _, [], hl => nomatch hl
  | info :: infos, part :: parts, hl => by
    obtain ⟨s, hs, hshape, hcounted⟩ | herror := decode_cases info part
    · obtain ⟨ss, hss, hshapes, hcounteds⟩ | herror :=
        decodeParts_cases infos parts (Nat.succ.inj hl)
      · left
        refine ⟨s :: ss, decodeParts_cons_eq_ok_iff.2 ⟨s, ss, hs, hss, rfl⟩, ?_, hcounted, hcounteds⟩
        rw [SignatureData.infos, hshape, hshapes]
      · right
        unfold decodeParts
        rw [hs, herror]
        rfl
    · right
      unfold decodeParts
      rw [herror]
      rfl
end

theorem counted_of_decode {info : ModeInfo} {raw : Bytes} {data : SignatureData}
    (h : decode info raw = .ok data) : data.Counted := by
  obtain ⟨data', hdata, -, hcounted⟩ | herror := decode_cases info raw
  · obtain rfl := Except.ok.inj (h.symm.trans hdata)
    exact hcounted
  · rw [h] at herror
    cases herror

/-- A signature with one part for every bit that is set is read back from its own bytes. Whatever the
bytes are, what is read from them has the modes and the bits that were stated, and one part for every bit
that is set; if nothing is read, then because of the format. -/
theorem decode_raw_and_shape :
    (∀ data : SignatureData, data.Counted → data.raw.length < 2 ^ 64 →
      decode data.info data.raw = .ok data) ∧
    ∀ (info : ModeInfo) (raw : Bytes),
      (∃ data, decode info raw = .ok data ∧ data.info = info ∧ data.Counted) ∨
        decode info raw = .error .invalidFormat :=
  ⟨decode_raw, decode_cases⟩

/-- Two of three members, the second of which is a threshold key itself. -/
def nestedSignature : SignatureData :=
  .multi [true, false, true] [.single .direct [1, 2], .multi [false, true] [.single .aminoJson []]]

theorem nestedSignature_read_back : nestedSignature.Counted ∧ nestedSignature.raw.length < 2 ^ 64 ∧
    decode nestedSignature.info nestedSignature.raw = .ok nestedSignature := by
  have hcounted : nestedSignature.Counted := ⟨rfl, trivial, ⟨rfl, trivial, trivial⟩, trivial⟩
  have hlength : nestedSignature.raw.length < 2 ^ 64 := by decide
  exact ⟨hcounted, hlength, decode_raw_and_shape.1 nestedSignature hcounted hlength⟩

mutual
/-- Raw signatures that are read as the same differ behind the parts only. -/
theorem sameButTrailing_of_decode : (info : ModeInfo) → {raw raw' : Bytes} → {data : SignatureData} →
    decode info raw = .ok data → decode info raw' = .ok data → SameButTrailing info raw raw'
  | .single mode, raw, raw', data, h, h' => by
    have he : SignatureData.single mode raw = .single mode raw' := Except.ok.inj (h.trans h'.symm)
    exact (SignatureData.single.inj he).2
  | .multi bits infos, raw, raw', data, h, h' => by
    obtain ⟨parts, ss, hread, hl, -, hss, rfl⟩ := decode_multi_eq_ok_iff.1 h
    obtain ⟨parts', ss', hread', hl', -, hss', he⟩ := decode_multi_eq_ok_iff.1 h'
    obtain rfl := (SignatureData.multi.inj he).2
    obtain ⟨-, rest, rfl⟩ := decode_parts_eq_ok_iff.1 hread
    obtain ⟨-, rest', rfl⟩ := decode_parts_eq_ok_iff.1 hread'
    exact ⟨parts, parts', rest, rest', rfl, rfl,
      samePartsButTrailing_of_decode infos hl hl' hss hss'⟩
theorem samePartsButTrailing_of_decode : (infos : List ModeInfo) → {parts parts' : List Bytes} →
    {ss : List SignatureData} → parts.length = infos.length → parts'.length = infos.length →
    decodeParts infos parts = .ok ss → decodeParts infos parts' = .ok ss →
      SamePartsButTrailing infos parts parts'
  | [], [], [], _, _, _, _, _ => trivial
  | info :: infos, part :: parts, part' :: parts', ss, hl, hl', h, h' => by
    obtain ⟨s, rest, hs, hrest, rfl⟩ := decodeParts_cons_eq_ok_iff.1 h
    obtain ⟨s', rest', hs', hrest', he⟩ := decodeParts_cons_eq_ok_iff.1 h'
    obtain ⟨rfl, rfl⟩ := List.cons.inj he
    exact ⟨sameButTrailing_of_decode info hs hs',
      samePartsButTrailing_of_decode infos (Nat.succ.inj hl) (Nat.succ.inj hl') hrest hrest'⟩
end

theorem length_of_samePartsButTrailing {infos : List ModeInfo} {parts parts' : List Bytes}
    (h : SamePartsButTrailing infos parts parts') :
    parts.length = infos.length ∧ parts'.length = infos.length := by
  induction infos generalizing parts parts' with
  | nil =>
    match parts, parts', h with
    | [], [], _ => exact ⟨rfl, rfl⟩
  | cons info infos ih =>
    match parts, parts', h with
    | _ :: _, _ :: _, h =>
      obtain ⟨hl, hl'⟩ := ih h.2
      exact ⟨congrArg (· + 1) hl, congrArg (· + 1) hl'⟩

mutual
/-- Bytes behind the parts can be changed without any effect. -/
theorem decode_of_sameButTrailing : (info : ModeInfo) → {raw raw' : Bytes} → {data : SignatureData} →
    raw.length < 2 ^ 64 → raw'.length < 2 ^ 64 → decode info raw = .ok data →
    SameButTrailing info raw raw' → decode info raw' = .ok data
  | .single mode, raw, raw', data, _, _, h, hsame => by
    rw [← h, show raw = raw' from hsame]
  | .multi bits infos, raw, raw', data, hlt, hlt', h, hsame => by
    obtain ⟨parts, parts', rest, rest', rfl, rfl, hparts⟩ := hsame
    rw [List.length_append] at hlt hlt'
    have hfit : PartsFit parts := partsFit_of_length (by omega)
    have hfit' : PartsFit parts' := partsFit_of_length (by omega)
    obtain ⟨parts₀, ss, hread, hinfos, hbits, hss, rfl⟩ := decode_multi_eq_ok_iff.1 h
    -- the bytes determine their parts
    rw [decode_parts_eq_ok_iff.2 ⟨hfit, rest, rfl⟩] at hread
    obtain rfl := Except.ok.inj hread
    have hinfos' := (length_of_samePartsButTrailing hparts).2
    refine decode_multi_eq_ok_iff.2 ⟨parts', ss, decode_parts_eq_ok_iff.2 ⟨hfit', rest', rfl⟩,
      hinfos', ?_, decodeParts_of_samePartsButTrailing infos hfit.2 hfit'.2 hss hparts, rfl⟩
    rw [hinfos', ← hinfos, hbits]
theorem decodeParts_of_samePartsButTrailing : (infos : List ModeInfo) → {parts parts' : List Bytes} →
    {ss : List SignatureData} → (∀ part ∈ parts, part.length < 2 ^ 64) →
    (∀ part ∈ parts', part.length < 2 ^ 64) → decodeParts infos parts = .ok ss →
    SamePartsButTrailing infos parts parts' → decodeParts infos parts' = .ok ss
  | [], [], [], _, _, _, h, _ => h
  | info :: infos, part :: parts, part' :: parts', ss, hlt, hlt', h, hsame => by
    rw [List.forall_mem_cons] at hlt hlt'
    obtain ⟨s, rest, hs, hrest, rfl⟩ := decodeParts_cons_eq_ok_iff.1 h
    exact decodeParts_cons_eq_ok_iff.2 ⟨s, rest,
      decode_of_sameButTrailing info hlt.1 hlt'.1 hs hsame.1,
      decodeParts_of_samePartsButTrailing infos hlt.2 hlt'.2 hrest hsame.2, rfl⟩
end

mutual
/-- The bytes of a signature are the fewest it is read from. -/
theorem eq_raw_or_length_lt : (info : ModeInfo) → {raw : Bytes} → {data : SignatureData} →
    decode info raw = .ok data → raw = data.raw ∨ data.raw.length < raw.length
  | .single mode, raw, data, h => by
    obtain rfl := Except.ok.inj h
    exact .inl rfl
  | .multi bits infos, raw, data, h => by
    obtain ⟨parts, ss, hread, hinfos, -, hss, rfl⟩ := decode_multi_eq_ok_iff.1 h
    obtain ⟨-, rest, rfl⟩ := decode_parts_eq_ok_iff.1 hread
    change _ = encodeParts (raws ss) ∨ (encodeParts (raws ss)).length < _
    rw [List.length_append]
    obtain rfl | hlt := eq_raws_or_length_lt infos hinfos hss
    · cases rest with
      | nil => exact .inl (List.append_nil _)
      | cons b rest => exact .inr (by rw [List.length_cons]; omega)
    · exact .inr (by omega)
theorem eq_raws_or_length_lt : (infos : List ModeInfo) → {parts : List Bytes} →
    {ss : List SignatureData} → parts.length = infos.length → decodeParts infos parts = .ok ss →
    parts = raws ss ∨ (encodeParts (raws ss)).length < (encodeParts parts).length
  | [], [], ss, _, h => by
    obtain rfl := Except.ok.inj h
    exact .inl rfl
  | info :: infos, part :: parts, ss, hl, h => by
    obtain ⟨s, rest, hs, hrest, rfl⟩ := decodeParts_cons_eq_ok_iff.1 h
    simp only [length_encodeParts, raws, List.map_cons, List.sum_cons]
    have hhead := eq_raw_or_length_lt info hs
    have htail := eq_raws_or_length_lt infos (Nat.succ.inj hl) hrest
    rw [length_encodeParts, length_encodeParts] at htail
    obtain rfl | hhead := hhead
    · obtain rfl | htail := htail
      · exact .inl rfl
      · exact .inr (by omega)
    · obtain rfl | htail := htail
      · exact .inr (by omega)
      · exact .inr (by omega)
end

end SignatureData
end Tollgate
