import Tollgate.Proofs.Ledger.Outcome
import Tollgate.Signature.Gas
/-! Charges on meters with different limits: what succeeds on a meter succeeds on every roomier one
and consumes the same there. -/
namespace Tollgate

open Call

namespace GasMeter

variable {m n m' : GasMeter} {amount : UInt64} {descriptor : String}

theorem consume_eq_ok_iff : consume amount descriptor m = .ok () m' ↔
    m'.limit = m.limit ∧ m'.consumed.toNat = m.consumed.toNat + amount.toNat ∧
      ∀ limit ∈ m.limit, m'.consumed ≤ limit := by
  obtain ⟨limit?, consumed⟩ := m
  obtain ⟨limit'?, consumed'⟩ := m'
  simp only
  rw [← Word.add?_eq_some_iff]
  unfold consume
  cases Word.add? consumed amount with
  | none => simp
  | some total =>
    cases limit? with
    | none => simp [eq_comm, and_comm]
    | some limit =>
      by_cases h : limit < total
      · have hn (ht : total = consumed') : ¬consumed' ≤ limit := by
          rw [← ht]
          exact UInt64.not_le.2 h
        simp only [if_pos h, reduceCtorEq, Option.mem_def, Option.some.injEq, forall_eq',
          false_iff, not_and]
        exact fun _ => hn
      · have hle : total ≤ limit := UInt64.not_lt.1 h
        simp only [if_neg h, EStateM.Result.ok.injEq, true_and, mk.injEq, Option.mem_def,
          Option.some.injEq, forall_eq']
        constructor
        · rintro ⟨rfl, rfl⟩
          exact ⟨rfl, rfl, hle⟩
        · rintro ⟨rfl, rfl, -⟩
          exact ⟨rfl, rfl⟩

/-- A charge of nothing changes nothing on a meter within its limit. -/
theorem consume_zero (h : ∀ limit ∈ m.limit, m.consumed ≤ limit) :
    consume 0 descriptor m = .ok () m :=
  consume_eq_ok_iff.2 ⟨rfl, by simp, h⟩

/-- The second meter has consumed as much as the first one, and has at least as much left. -/
structure Roomier (m n : GasMeter) : Prop where
  consumed : n.consumed = m.consumed
  limit : ∀ k ∈ n.limit, ∃ l ∈ m.limit, l ≤ k

theorem Roomier.consume (h : m.Roomier n) (hm : consume amount descriptor m = .ok () m') :
    ∃ n', consume amount descriptor n = .ok () n' ∧ m'.Roomier n' := by
  obtain ⟨hlimit, hconsumed, hle⟩ := consume_eq_ok_iff.1 hm
  refine ⟨⟨n.limit, m'.consumed⟩, consume_eq_ok_iff.2 ⟨rfl, ?_, fun k hk => ?_⟩, rfl, ?_⟩
  · rw [hconsumed, h.consumed]
  · obtain ⟨l, hl, hlk⟩ := h.limit k hk
    exact UInt64.le_trans (hle l hl) hlk
  · rw [hlimit]
    exact h.limit

/-- The limit decides whether the charge succeeds, and nothing else. -/
def Regular {ε : Type} (c : EStateM ε GasMeter Unit) : Prop :=
  ∀ m n m', m.Roomier n → c m = .ok () m' → ∃ n', c n = .ok () n' ∧ m'.Roomier n'

namespace Regular

variable {ε ε' α : Type}

theorem consume (amount : UInt64) (descriptor : String) : Regular (consume amount descriptor) :=
  fun _ _ _ h hm => h.consume hm

theorem pure : Regular (Pure.pure () : EStateM ε GasMeter Unit) := by
  intro m n m' h hm
  obtain ⟨-, rfl⟩ := pure_eq_ok_iff.1 hm
  exact ⟨n, rfl, h⟩

theorem bind {c d : EStateM ε GasMeter Unit} (hc : Regular c) (hd : Regular d) :
    Regular (do c; d) := by
  intro m n m' h hm
  obtain ⟨⟨⟩, x, hx, hm⟩ := bind_eq_ok_iff.1 hm
  obtain ⟨y, hy, hxy⟩ := hc m n x h hx
  obtain ⟨n', hn, hend⟩ := hd x y m' hxy hm
  exact ⟨n', bind_eq_ok_iff.2 ⟨(), y, hy, hn⟩, hend⟩

theorem mapError {c : EStateM ε GasMeter Unit} (hc : Regular c) (f : ε → ε') :
    Regular (Call.mapError f c) := by
  intro m n m' h hm
  unfold Call.mapError at hm ⊢
  cases hcm : c m with
  | error e x =>
    rw [hcm] at hm
    cases hm
  | ok u x =>
    rw [hcm] at hm
    obtain ⟨-, rfl⟩ := EStateM.Result.ok.inj hm
    obtain ⟨n', hn, hend⟩ := hc m n x h hcm
    exact ⟨n', by rw [hn], hend⟩

end Regular
end GasMeter

namespace PublicKey

open GasMeter

variable (params : AuthParams)

mutual
theorem regular_consumeGas : (key : PublicKey) → (data : SignatureData) →
    Regular (consumeGas params key data)
  | .single key, _ => by
    unfold consumeGas
    exact .consume _ _
  | .multisig _ keys, .multi bits signatures => by
    unfold consumeGas
    exact regular_consumeGasSigned keys bits signatures
  | .multisig _ keys, .single mode signature => by
    unfold consumeGas
    exact regular_consumeGasAll keys (.single mode signature)
theorem regular_consumeGasSigned : (keys : List PublicKey) → (bits : List Bool) →
    (signatures : List SignatureData) → Regular (consumeGasSigned params keys bits signatures)
  | key :: keys, true :: bits, signature :: signatures => by
    unfold consumeGasSigned
    exact (regular_consumeGas key signature).bind (regular_consumeGasSigned keys bits signatures)
  | _ :: keys, false :: bits, signatures => by
    unfold consumeGasSigned
    exact regular_consumeGasSigned keys bits signatures
  | [], _, _ => .pure
  | _ :: _, [], _ => .pure
  | _ :: _, true :: _, [] => .pure
theorem regular_consumeGasAll : (keys : List PublicKey) → (data : SignatureData) →
    Regular (consumeGasAll params keys data)
  | key :: keys, data => by
    unfold consumeGasAll
    exact (regular_consumeGas key data).bind (regular_consumeGasAll keys data)
  | [], _ => .pure
end

end PublicKey
end Tollgate
