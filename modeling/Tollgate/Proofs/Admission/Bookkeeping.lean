import Tollgate.Admission.InMemory
import Tollgate.Proofs.Admission.Passage
import Tollgate.Proofs.Ledger.Book
/-! Accounts in memory under admission: only the stages of keys and sequences change them, and what
no stage can do to them holds of every run. -/
namespace Tollgate

open Call Relation

variable {σ : Type}

/-- The accounts are a book in memory, seen through a view, and no other service changes it. -/
structure Wiring.KeepsBook (w : Wiring σ) (book : σ → AccountBook) : Prop where
  account : ∀ a, Mirrors book (w.accounts.account a) (.reading fun b => b.find? a)
  setKey : ∀ a key, Mirrors book (w.accounts.setKey a key) (AccountBook.setKey a key)
  advance : ∀ a, Mirrors book (w.accounts.advanceSequence a) (AccountBook.advanceSequence a)
  spendable : ∀ a denom, Leaves book (w.bank.spendable a denom)
  deduct : ∀ payer collector fee, Leaves book (w.bank.deduct payer collector fee)
  checkAllowance : ∀ registry ∈ w.allowances, ∀ granter grantee fee ms,
    Leaves book (registry.check granter grantee fee ms)
  spendAllowance : ∀ registry ∈ w.allowances, ∀ granter grantee fee ms,
    Leaves book (registry.spend granter grantee fee ms)
  signBytes : ∀ mode data tx, Leaves book (w.signModes.signBytes mode data tx)
  checkSignature : ∀ key message signature, Leaves book (w.checkSignature key message signature)
  isProcessed : ∀ registry ∈ w.relays, ∀ action packet,
    Leaves book (registry.isProcessed action packet)
  increment : ∀ height urls, Leaves book (w.counter.increment height urls)

section Change

variable {w : Wiring σ} {tx : Transaction} {simulate : Bool} {book : σ → AccountBook}

/-- A change leaves the accounts, stores the key of a signer who had none, or advances the sequence
of a signer. -/
theorem Change.book_cases (hw : w.KeepsBook book) {s : Stage} {r t : Run σ}
    (h : Change w tx simulate s r t) :
    book t.services = book r.services ∨
    (s = .keys ∧ simulate = false ∧ ∃ a ∈ tx.signers, ∃ key : PublicKey, key.address = a ∧
      ((book r.services).find? a).bind Account.key = none ∧
      book t.services = after (AccountBook.setKey a key) (book r.services)) ∨
    (s = .sequences ∧ simulate = false ∧ ∃ a ∈ tx.signers,
      book t.services = after (AccountBook.advanceSequence a) (book r.services)) := by
  cases h with
  | count _ hs => exact .inl (hw.increment _ _ _)
  | account _ _ a => exact .inl ((hw.account a).after _)
  | spendable _ a denom hs => exact .inl (hw.spendable a denom _)
  | deduct _ payer fee hs => exact .inl (hw.deduct _ _ _ _)
  | checkAllowance _ registry granter grantee fee hr hs =>
    exact .inl (hw.checkAllowance registry hr _ _ _ _ _)
  | spendAllowance _ registry granter grantee fee hr hs =>
    exact .inl (hw.spendAllowance registry hr _ _ _ _ _)
  | storeKey _ a i key found u hs ha hkey hderives hfound hnone =>
    obtain ⟨rfl, hu⟩ := EStateM.Result.ok.inj ((hw.account a).ok hfound)
    have ha : a ∈ tx.signers := List.mem_of_getElem? (List.mem_zipIdx_iff_getElem?.1 ha)
    refine .inr (.inl ⟨rfl, hs, a, ha, key, hderives, hnone, ?_⟩)
    rw [hu]
    exact (hw.setKey a key).after u
  | signBytes _ mode data => exact .inl (hw.signBytes mode data tx _)
  | checkSignature _ key message signature => exact .inl (hw.checkSignature key message signature _)
  | advance _ a hs ha => exact .inr (.inr ⟨rfl, hs, a, ha, (hw.advance a).after _⟩)
  | isProcessed _ registry action packet hr =>
    exact .inl (hw.isProcessed registry hr action packet _)
  | _ => exact .inl rfl

theorem Change.numbers (hw : w.KeepsBook book) {s : Stage} {r t : Run σ}
    (h : Change w tx simulate s r t) (a : Address) :
    (book t.services).number? a = (book r.services).number? a := by
  rcases h.book_cases hw with h | ⟨-, -, c, -, key, -, -, h⟩ | ⟨-, -, c, -, h⟩
  · rw [h]
  · rw [h, AccountBook.number?_setKey]
  · rw [h, AccountBook.number?_advanceSequence]

/-- Sequences change in their own stage only. -/
theorem Change.sequences (hw : w.KeepsBook book) {s : Stage} {r t : Run σ}
    (h : Change w tx simulate s r t) (hs : s ≠ .sequences) (a : Address) :
    (book t.services).sequence? a = (book r.services).sequence? a := by
  rcases h.book_cases hw with h | ⟨-, -, c, -, key, -, -, h⟩ | ⟨h, -⟩
  · rw [h]
  · rw [h, AccountBook.sequence?_setKey]
  · exact absurd h hs

/-- Only the stages of keys and sequences change accounts. -/
theorem Change.book_eq (hw : w.KeepsBook book) {s : Stage} {r t : Run σ}
    (h : Change w tx simulate s r t) (hkeys : s ≠ .keys) (hsequences : s ≠ .sequences) :
    book t.services = book r.services := by
  rcases h.book_cases hw with h | ⟨h, -⟩ | ⟨h, -⟩
  · exact h
  · exact absurd h hkeys
  · exact absurd h hsequences

theorem Change.rises (hw : w.KeepsBook book) {s : Stage} {r t : Run σ}
    (h : Change w tx simulate s r t) : (book r.services).Rises (book t.services) := by
  rcases h.book_cases hw with h | ⟨-, -, c, -, key, -, -, h⟩ | ⟨-, -, c, -, h⟩
  · rw [h]
    exact .refl _
  · intro a n hn
    exact ⟨n, by rw [h, AccountBook.sequence?_setKey, hn], UInt64.le_refl n⟩
  · rw [h]
    exact AccountBook.rises_advanceSequence c _

theorem Change.keysDerive (hw : w.KeepsBook book) {s : Stage} {r t : Run σ}
    (h : Change w tx simulate s r t) (hr : (book r.services).KeysDerive) :
    (book t.services).KeysDerive := by
  rcases h.book_cases hw with h | ⟨-, -, c, -, key, hkey, -, h⟩ | ⟨-, -, c, -, h⟩
  · rwa [h]
  · rw [h]
    exact hr.setKey hkey
  · rw [h]
    exact hr.advanceSequence c

/-- What the caller stated about the block stays. -/
theorem Change.caller {s : Stage} {r t : Run σ} (h : Change w tx simulate s r t) :
    t.context.reset false .infinite = r.context.reset false .infinite := by
  cases h <;> rfl

/-- The signers are forgotten at the start and found again with the keys. -/
theorem Change.cached {s : Stage} {r t : Run σ} (h : Change w tx simulate s r t)
    (hsetup : s ≠ .setup) (hkeys : s ≠ .keys) : t.context.signers = r.context.signers := by
  cases h with
  | reset => exact absurd rfl hsetup
  | signers _ ss => exact absurd rfl hkeys
  | _ => rfl

end Change

namespace Stage

variable {w : Wiring σ} {tx : Transaction} {simulate : Bool} {book : σ → AccountBook}
  {ss : List Stage} {r t : Run σ}

theorem numbers_of_reached (hw : w.KeepsBook book)
    (h : ReflTransGen (Changes w tx simulate ss) r t) (a : Address) :
    (book t.services).number? a = (book r.services).number? a :=
  eq_of_reached (f := fun x => (book x.services).number? a)
    (fun _ _ _ _ hc => hc.numbers hw a) h

theorem sequences_of_reached (hw : w.KeepsBook book) (hss : .sequences ∉ ss)
    (h : ReflTransGen (Changes w tx simulate ss) r t) (a : Address) :
    (book t.services).sequence? a = (book r.services).sequence? a := by
  refine eq_of_reached (f := fun x => (book x.services).sequence? a) ?_ h
  intro s hs x y hc
  exact hc.sequences hw (fun he => hss (he ▸ hs)) a

theorem book_of_reached (hw : w.KeepsBook book) (hkeys : .keys ∉ ss) (hsequences : .sequences ∉ ss)
    (h : ReflTransGen (Changes w tx simulate ss) r t) : book t.services = book r.services := by
  refine eq_of_reached (f := fun x => book x.services) ?_ h
  intro s hs x y hc
  exact hc.book_eq hw (fun he => hkeys (he ▸ hs)) fun he => hsequences (he ▸ hs)

theorem rises_of_reached (hw : w.KeepsBook book)
    (h : ReflTransGen (Changes w tx simulate ss) r t) :
    (book r.services).Rises (book t.services) := by
  refine of_reached (P := fun x => (book r.services).Rises (book x.services)) ?_ h (.refl _)
  intro s _ x y hc hx
  exact hx.trans (hc.rises hw)

theorem keysDerive_of_reached (hw : w.KeepsBook book)
    (h : ReflTransGen (Changes w tx simulate ss) r t) (hr : (book r.services).KeysDerive) :
    (book t.services).KeysDerive :=
  of_reached (P := fun x => (book x.services).KeysDerive)
    (fun _ _ _ _ hc hx => hc.keysDerive hw hx) h hr

theorem caller_of_reached (h : ReflTransGen (Changes w tx simulate ss) r t) :
    t.context.reset false .infinite = r.context.reset false .infinite :=
  eq_of_reached (f := fun x => x.context.reset false .infinite) (fun _ _ _ _ hc => hc.caller) h

theorem cached_of_reached (hsetup : .setup ∉ ss) (hkeys : .keys ∉ ss)
    (h : ReflTransGen (Changes w tx simulate ss) r t) :
    t.context.signers = r.context.signers := by
  refine eq_of_reached (f := fun x => x.context.signers) ?_ h
  intro s hs x y hc
  exact hc.cached (fun he => hsetup (he ▸ hs)) fun he => hkeys (he ▸ hs)

end Stage
end Tollgate
