import Tollgate.Proofs.Admission.Lookup
import Tollgate.Proofs.Admission.Tuning
import Tollgate.Proofs.Ledger.Signing
/-! When the keys of all signers are found over services in memory, and what finding them leaves: the
signers in the cache, and every provided key in the account that had none. -/
namespace Tollgate

open Call

/-- The same run with other accounts. -/
def Run.withAccounts (r : Run Memory) (b : AccountBook) : Run Memory :=
  { r with services := { r.services with accounts := b } }

/-- These signers belong to these addresses, each with its position, and no provided key is foreign. -/
def Transaction.FindsAt (tx : Transaction) (b : AccountBook) (xs : List (Address × Nat))
    (ss : List Signer) : Prop :=
  List.Forall₂ (fun x s => Gate.checkProvidedKey tx x.1 x.2 = .ok () ∧ s.FoundIn tx x.1 x.2 b) xs ss

/-- These are the signers of the transaction, in their order. -/
def Transaction.Finds (tx : Transaction) (b : AccountBook) (ss : List Signer) : Prop :=
  tx.FindsAt b tx.signers.zipIdx ss

variable {tx : Transaction} {a : Address} {i : Nat} {s : Signer} {ss : List Signer}
  {b c : AccountBook} {xs : List (Address × Nat)}

namespace Transaction

theorem FindsAt.congr (hc : ∀ x ∈ xs, c.find? x.1 = b.find? x.1) (h : tx.FindsAt b xs ss) :
    tx.FindsAt c xs ss := by
  have hboth := (List.forall₂_and_left xs ss).2 ⟨hc, h⟩
  refine hboth.imp fun x s hx => ?_
  obtain ⟨hfind, hcheck, hfound⟩ := hx
  refine ⟨hcheck, ?_⟩
  unfold Signer.FoundIn
  rw [hfind]
  exact hfound

theorem FindsAt.addresses (h : tx.FindsAt b xs ss) : ss.map Signer.address = xs.map Prod.fst := by
  induction h with
  | nil => rfl
  | cons hx _ ih => rw [List.map_cons, List.map_cons, ih, hx.2.address]

theorem Finds.addresses (h : tx.Finds b ss) : ss.map Signer.address = tx.signers :=
  (FindsAt.addresses h).trans (List.zipIdx_map_fst 0 tx.signers)

/-- The signer at a position was made of its account and the key provided there. -/
theorem Finds.exists_of_mem (h : tx.Finds b ss) (hi : (a, i) ∈ tx.signers.zipIdx) :
    ∃ s ∈ ss, s.FoundIn tx a i b := by
  obtain ⟨s, hs, -, hfound⟩ := exists_right_of_forall₂ h hi
  exact ⟨s, hs, hfound⟩

end Transaction

namespace Gate

variable {tuning : Tuning} {r t : Run Memory} {simulate : Bool}

theorem resolveSigner_of_foundIn (h : s.FoundIn tx a i r.services.accounts) :
    resolveSigner tuning.wiring tx simulate a i r = .ok s r := by
  obtain ⟨account, key, haccount, hkey, rfl⟩ := h
  have hlook : Gate.account tuning.wiring a r = .ok (some account) r := by
    change EStateM.Result.ok (r.services.accounts.find? a) r = _
    rw [haccount]
  unfold resolveSigner
  refine bind_eq_ok_iff.2 ⟨some account, r, hlook, ?_⟩
  simp only [hkey]
  rfl

theorem resolveSigner_false_eq_ok_iff : resolveSigner tuning.wiring tx false a i r = .ok s t ↔
    s.FoundIn tx a i r.services.accounts ∧ r = t := by
  constructor
  · intro h
    have hfound := foundIn_of_resolveSigner tuning.keepsBook h
    have hsame := (resolveSigner_of_foundIn hfound).symm.trans h
    exact ⟨hfound, (EStateM.Result.ok.inj hsame).2⟩
  · rintro ⟨h, rfl⟩
    exact resolveSigner_of_foundIn h

/-- A provided key is stored exactly where the signer was made of it. -/
theorem storeProvidedKey_of_foundIn (h : s.FoundIn tx a i r.services.accounts) :
    storeProvidedKey tuning.wiring tx a i r =
      .ok () (r.withAccounts (r.services.accounts.keepKey s)) := by
  obtain ⟨account, key, haccount, hkey, rfl⟩ := h
  have hlook : Gate.account tuning.wiring a r = .ok (some account) r := by
    change EStateM.Result.ok (r.services.accounts.find? a) r = _
    rw [haccount]
  cases hstored : account.key with
  | some stored =>
    have hkeep : r.services.accounts.keepKey ⟨a, account.number, account.sequence, key, false⟩ =
        r.services.accounts := by
      simp [AccountBook.keepKey, haccount, hstored]
    rw [hkeep]
    unfold storeProvidedKey
    cases tx.providedKey? i with
    | none => rfl
    | some provided =>
      refine bind_eq_ok_iff.2 ⟨some account, r, hlook, ?_⟩
      simp only [Option.bind_some, hstored]
      rfl
  | none =>
    have hprovided : tx.providedKey? i = some key := by simpa [hstored] using hkey
    have hset : AccountBook.setKey a key r.services.accounts = .ok () (r.services.accounts.keepKey
        ⟨a, account.number, account.sequence, key, false⟩) := by
      simp [AccountBook.setKey, AccountBook.keepKey, haccount, hstored]
    unfold storeProvidedKey
    rw [hprovided]
    refine bind_eq_ok_iff.2 ⟨some account, r, hlook, ?_⟩
    simp only [Option.bind_some, hstored, Option.isNone_none, if_true]
    exact call_eq_ok_iff.2 ⟨_, Memory.onAccounts_eq_ok_iff.2 ⟨_, hset, rfl⟩, rfl⟩

theorem resolveKey_false_eq_ok_iff : resolveKey tuning.wiring tx false a i r = .ok s t ↔
    (checkProvidedKey tx a i = .ok () ∧ s.FoundIn tx a i r.services.accounts) ∧
      t = r.withAccounts (r.services.accounts.keepKey s) := by
  rw [resolveKey_false]
  constructor
  · intro h
    obtain ⟨⟨⟩, _, hgate, h⟩ := bind_eq_ok_iff.1 h
    obtain ⟨hcheck, rfl⟩ := ofExcept_eq_ok_iff.1 hgate
    obtain ⟨s', _, hs, h⟩ := bind_eq_ok_iff.1 h
    obtain ⟨hfound, rfl⟩ := resolveSigner_false_eq_ok_iff.1 hs
    obtain ⟨⟨⟩, _, hstore, h⟩ := bind_eq_ok_iff.1 h
    obtain ⟨rfl, rfl⟩ := pure_eq_ok_iff.1 h
    rw [storeProvidedKey_of_foundIn hfound] at hstore
    exact ⟨⟨hcheck, hfound⟩, (EStateM.Result.ok.inj hstore).2.symm⟩
  · rintro ⟨⟨hcheck, hfound⟩, rfl⟩
    refine bind_eq_ok_iff.2 ⟨(), r, ofExcept_eq_ok_iff.2 ⟨hcheck, rfl⟩, ?_⟩
    refine bind_eq_ok_iff.2 ⟨s, r, resolveSigner_false_eq_ok_iff.2 ⟨hfound, rfl⟩, ?_⟩
    exact bind_eq_ok_iff.2 ⟨(), _, storeProvidedKey_of_foundIn hfound, rfl⟩

/-- A stored key changes no other account, so that every later signer is found as before. -/
theorem mapM_resolveKey_eq_ok_iff (hn : (xs.map Prod.fst).Nodup) :
    xs.mapM (fun x => resolveKey tuning.wiring tx false x.1 x.2) r = .ok ss t ↔
      tx.FindsAt r.services.accounts xs ss ∧
        t = r.withAccounts (r.services.accounts.keepKeys ss) := by
  induction xs generalizing r ss with
  | nil =>
    rw [List.mapM_nil, pure_eq_ok_iff]
    constructor
    · rintro ⟨rfl, rfl⟩
      exact ⟨.nil, rfl⟩
    · rintro ⟨h, rfl⟩
      cases h
      exact ⟨rfl, rfl⟩
  | cons x xs ih =>
    rw [List.map_cons, List.nodup_cons] at hn
    have hkeeps {s : Signer} (hs : s.FoundIn tx x.1 x.2 r.services.accounts) :
        ∀ y ∈ xs, (r.services.accounts.keepKey s).find? y.1 = r.services.accounts.find? y.1 := by
      intro y hy
      apply AccountBook.find?_keepKey_of_ne
      intro he
      rw [hs.address] at he
      exact hn.1 (he ▸ List.mem_map_of_mem hy)
    rw [List.mapM_cons, bind_eq_ok_iff]
    constructor
    · rintro ⟨s, _, hs, h⟩
      obtain ⟨hx, rfl⟩ := resolveKey_false_eq_ok_iff.1 hs
      obtain ⟨rest, _, hrest, h⟩ := bind_eq_ok_iff.1 h
      obtain ⟨rfl, rfl⟩ := pure_eq_ok_iff.1 h
      obtain ⟨hlater, rfl⟩ := (ih hn.2).1 hrest
      have hnow : tx.FindsAt r.services.accounts xs rest :=
        hlater.congr fun y hy => (hkeeps hx.2 y hy).symm
      exact ⟨.cons hx hnow, rfl⟩
    · rintro ⟨h, rfl⟩
      cases h with
      | @cons _ s _ rest hx hrest =>
        have hlater : tx.FindsAt (r.services.accounts.keepKey s) xs rest :=
          Transaction.FindsAt.congr (hkeeps hx.2) hrest
        refine ⟨s, _, resolveKey_false_eq_ok_iff.2 ⟨hx, rfl⟩, ?_⟩
        exact bind_eq_ok_iff.2 ⟨rest, _, (ih hn.2).2 ⟨hlater, rfl⟩, rfl⟩

theorem resolveKeys_false_eq_ok_iff : resolveKeys tuning.wiring tx false r = .ok () t ↔
    ∃ ss, tx.Finds r.services.accounts ss ∧ t = ⟨{ r.context with signers := ss },
      { r.services with accounts := r.services.accounts.keepKeys ss }⟩ := by
  have hn : (tx.signers.zipIdx.map Prod.fst).Nodup := by
    rw [List.zipIdx_map_fst]
    exact tx.nodup_signers
  unfold resolveKeys
  rw [bind_eq_ok_iff]
  constructor
  · rintro ⟨ss, _, hss, h⟩
    obtain ⟨hfinds, rfl⟩ := (mapM_resolveKey_eq_ok_iff hn).1 hss
    exact ⟨ss, hfinds, (modifyContext_eq_ok_iff.1 h).symm⟩
  · rintro ⟨ss, hfinds, rfl⟩
    exact ⟨ss, _, (mapM_resolveKey_eq_ok_iff hn).2 ⟨hfinds, rfl⟩, rfl⟩

/-- A simulation finds the same signers and stores nothing. -/
theorem mapM_resolveKey_true_eq_ok (h : tx.FindsAt r.services.accounts xs ss) :
    xs.mapM (fun x => resolveKey tuning.wiring tx true x.1 x.2) r = .ok ss r := by
  induction h with
  | nil => rfl
  | @cons x s xs rest hx _ ih =>
    have hs : resolveKey tuning.wiring tx true x.1 x.2 r = .ok s r := by
      rw [resolveKey_true]
      exact resolveSigner_of_foundIn hx.2
    rw [List.mapM_cons]
    exact bind_eq_ok_iff.2 ⟨s, r, hs, bind_eq_ok_iff.2 ⟨rest, r, ih, rfl⟩⟩

theorem resolveKeys_true_eq_ok (h : tx.Finds r.services.accounts ss) :
    resolveKeys tuning.wiring tx true r =
      .ok () { r with context := { r.context with signers := ss } } :=
  bind_eq_ok_iff.2 ⟨ss, r, mapM_resolveKey_true_eq_ok h, rfl⟩

end Gate
end Tollgate
