import Tollgate.Proofs.Ledger.Allowance
import Tollgate.Proofs.Ledger.Shortfall
import Tollgate.Proofs.Ledger.Signing
/-! Two ledgers that are alike where a call looks: the call has the same outcome over both, and does the
same to both. -/
namespace Tollgate

open Call

namespace AccountBook

variable {as : List Address} {a : Address} {b c : AccountBook}

/-- Two books with the same parameters, and with the same account at each of these addresses. -/
structure AlikeAt (as : List Address) (b c : AccountBook) : Prop where
  params : b.params = c.params
  account : ∀ a ∈ as, b.find? a = c.find? a

theorem AlikeAt.modify (h : b.AlikeAt as c) (a : Address) (f : Account → Account) :
    (b.modify a f).AlikeAt as (c.modify a f) := by
  have hparams (d : AccountBook) : (d.modify a f).params = d.params :=
    congrArg Prod.fst (header_modify d a f)
  constructor
  · rw [hparams, hparams, h.params]
  · intro x hx
    rw [find?_modify, find?_modify, h.account x hx]

theorem lockstep_setKey (ha : a ∈ as) (key : PublicKey) :
    Lockstep (AlikeAt as) (setKey a key) (setKey a key) := by
  intro b c h
  unfold setKey
  rw [h.account a ha]
  cases c.find? a with
  | none => exact .error _ h
  | some account => exact .ok () (h.modify a _)

theorem lockstep_advanceSequence (ha : a ∈ as) :
    Lockstep (AlikeAt as) (advanceSequence a) (advanceSequence a) := by
  intro b c h
  unfold advanceSequence
  rw [h.account a ha]
  cases c.find? a with
  | none => exact .error _ h
  | some account =>
    dsimp only
    cases Word.add? account.sequence 1 with
    | none => exact .error _ h
    | some sequence => exact .ok sequence (h.modify a _)

end AccountBook

namespace Allowances

/-- Two books of allowances with the same one between these accounts. -/
def AlikeAt (granter grantee : Address) (g h : Allowances) : Prop :=
  g.find? granter grantee = h.find? granter grantee

theorem lockstep_spend (granter grantee : Address) (fee : Coins) :
    Lockstep (AlikeAt granter grantee) (spend granter grantee fee) (spend granter grantee fee) := by
  intro g h hgh
  have hput (left : Option Allowance) :
      AlikeAt granter grantee (g.put granter grantee left) (h.put granter grantee left) := by
    unfold AlikeAt
    rw [find?_put, find?_put, if_pos ⟨rfl, rfl⟩, if_pos ⟨rfl, rfl⟩]
  have hsame : g.find? granter grantee = h.find? granter grantee := hgh
  unfold spend
  rw [hsame]
  cases h.find? granter grantee with
  | none => exact .error _ hgh
  | some a =>
    dsimp only
    cases a.check fee with
    | error e => exact .error e hgh
    | ok u =>
      cases a.spend fee with
      | error e => exact .error e hgh
      | ok left => exact .ok () (hput left)

end Allowances

namespace Bank

variable {source collector : Address} {fee : Coins} {b c : Bank}

/-- A fee has the same outcome for a source that holds the same, and if it is moved, then in both. -/
theorem agrees_deduct (hfee : fee.check = .ok ())
    (hheld : ∀ denom, b.balance source denom = c.balance source denom)
    (hb : b.HasRoom collector fee) (hc : c.HasRoom collector fee) :
    Agrees (fun b' c' => (b' = b ∧ c' = c) ∨
        (b.Transfers source collector fee b' ∧ c.Transfers source collector fee c'))
      (deduct source collector fee b) (deduct source collector fee c) := by
  have hshort := shortfall?_congr hheld fee.toList
  cases hfound : c.shortfall? source fee.toList with
  | some e =>
    have hstop : deduct source collector fee b = .error e b := by
      rw [deduct_of_room hfee hb, hshort, hfound]
    have hstop' : deduct source collector fee c = .error e c := by
      rw [deduct_of_room hfee hc, hfound]
    rw [hstop, hstop']
    exact .error e (.inl ⟨rfl, rfl⟩)
  | none =>
    obtain ⟨b', hmove⟩ := (exists_deduct_iff hfee).2 ⟨hshort.trans hfound, hb⟩
    obtain ⟨c', hmove'⟩ := (exists_deduct_iff hfee).2 ⟨hfound, hc⟩
    rw [hmove, hmove']
    exact .ok () (.inr ⟨balance_deduct hfee hmove, balance_deduct hfee hmove'⟩)

end Bank
end Tollgate
