import Tollgate.Proofs.Admission.Charge
import Tollgate.Proofs.Ledger.Counter
/-! What an admission outside simulation makes of services in memory, exactly: each service holds what
it held before, but for the sequences and keys of the signers, one fee and one count. -/
namespace Tollgate

open Call

/-- The second state is what a transaction makes of the first one, if this payer is named and the
collector gets the fee. -/
structure Memory.Effect (s t : Memory) (tx : Transaction) (collector payer : Address)
    (height : UInt64) : Prop where
  /-- A signer's sequence is higher by one, and its key is the one it had, else the provided one. -/
  signer : ∀ i a, tx.signers[i]? = some a → ∃ account key n, s.accounts.find? a = some account ∧
    (account.key <|> tx.providedKey? i) = some key ∧ n.toNat = account.sequence.toNat + 1 ∧
    t.accounts.find? a = some { account with sequence := n, key := some key }
  bystander : ∀ a ∉ tx.signers, t.accounts.find? a = s.accounts.find? a
  header : t.accounts.header = s.accounts.header
  /-- The fee leaves its source and reaches the collector, who may be the source. -/
  balance : ∀ a denom, (t.bank.balance a denom).toNat +
      (if tx.feeSource payer = a then (tx.fee.amountOf denom).toNat else 0) =
    (s.bank.balance a denom).toNat +
      (if collector = a then (tx.fee.amountOf denom).toNat else 0)
  allowances : (tx.feeSource payer = payer ∧ t.allowances = s.allowances) ∨
    (tx.feeSource payer ≠ payer ∧
      s.allowances.Charged t.allowances (tx.feeSource payer) payer tx.fee)
  counter : s.counter.Counted t.counter height tx.typeUrls
  relays : t.relays = s.relays

variable {tuning : Tuning} {tx : Transaction} {r t : Run Memory} {outcome : Admission}

namespace Tuning.Signs

variable {c : Context} {b accounts : AccountBook} {sized meter : GasMeter} {signers : List Signer}

theorem find?_of_signer (h : tuning.Signs tx c b sized signers meter accounts) {i : Nat}
    {a : Address} (hi : tx.signers[i]? = some a) : ∃ account key n, b.find? a = some account ∧
      (account.key <|> tx.providedKey? i) = some key ∧ n.toNat = account.sequence.toNat + 1 ∧
      accounts.find? a = some { account with sequence := n, key := some key } := by
  obtain ⟨s, hs, hfound⟩ := h.found.exists_of_mem (List.mem_zipIdx_iff_getElem?.2 hi)
  have hn : (signers.map Signer.address).Nodup := by
    rw [h.found.addresses]
    exact tx.nodup_signers
  obtain ⟨account, key, haccount, hkey, rfl⟩ := hfound
  have hkept := AccountBook.find?_keepKeys_of_mem hn hs haccount
  have hsame : account.key.getD key = key := by
    cases hstored : account.key with
    | none => rfl
    | some stored => simpa [hstored] using hkey
  obtain ⟨middle, n, hmiddle, hnext, hfinal⟩ := AccountBook.find?_advanceAll_of_mem
    tx.nodup_signers h.advanced (List.mem_of_getElem? hi)
  obtain rfl := Option.some.inj (hkept.symm.trans hmiddle)
  rw [hsame] at hfinal
  exact ⟨account, key, n, haccount, hkey, hnext, hfinal⟩

theorem find?_of_bystander (h : tuning.Signs tx c b sized signers meter accounts) {a : Address}
    (ha : a ∉ tx.signers) : accounts.find? a = b.find? a := by
  have hkept : (b.keepKeys signers).find? a = b.find? a := by
    apply AccountBook.find?_keepKeys_of_not_mem
    rw [h.found.addresses]
    exact ha
  exact (AccountBook.find?_advanceAll_of_not_mem h.advanced ha).trans hkept

theorem header_eq (h : tuning.Signs tx c b sized signers meter accounts) :
    accounts.header = b.header :=
  (AccountBook.header_advanceAll h.advanced).trans (AccountBook.header_keepKeys b signers)

end Tuning.Signs

namespace Tuning.Pays

variable {s : Memory} {payer : Address} {allowances : Allowances} {bank : Bank}

theorem balance (h : tuning.Pays tx s payer allowances bank) (hfee : tx.fee.check = .ok ())
    (a : Address) (denom : String) : (bank.balance a denom).toNat +
        (if tx.feeSource payer = a then (tx.fee.amountOf denom).toNat else 0) =
      (s.bank.balance a denom).toNat + (if moduleAddress tuning.settings.feeCollector = a then
        (tx.fee.amountOf denom).toNat else 0) := by
  rcases h.moved with ⟨hzero, rfl⟩ | ⟨-, hmove⟩
  · simp [Coins.toNat_amountOf_of_isZero hzero]
  · exact Bank.balance_deduct hfee hmove a denom

theorem allowances_charged (h : tuning.Pays tx s payer allowances bank)
    (hsound : s.allowances.Sound) : (tx.feeSource payer = payer ∧ allowances = s.allowances) ∨
      (tx.feeSource payer ≠ payer ∧
        s.allowances.Charged allowances (tx.feeSource payer) payer tx.fee) := by
  rcases h.granted with hown | ⟨hne, -, hspend⟩
  · exact .inl hown
  · exact .inr ⟨hne, hsound.charged_of_spend hspend⟩

end Tuning.Pays

theorem Transaction.fee_check_of_checkForm (h : tx.checkForm = .ok ()) : tx.fee.check = .ok () := by
  -- the fee is checked after the messages, the signatures and the gas
  obtain ⟨_, -, h⟩ := except_bind_eq_ok_iff.1 h
  obtain ⟨_, -, h⟩ := except_bind_eq_ok_iff.1 h
  obtain ⟨_, -, h⟩ := except_bind_eq_ok_iff.1 h
  obtain ⟨_, hfee, -⟩ := except_bind_eq_ok_iff.1 h
  cases hcheck : tx.fee.check with
  | ok u => rfl
  | error e => simp [hcheck, Except.mapError] at hfee

/-- A run that fits changes the services in memory by the effect of the transaction. -/
theorem Imprint.Fits.effect {x : Imprint} (h : x.Fits tuning tx r)
    (hmode : r.context.mode ≠ .recheck) (hsound : r.services.allowances.Sound) :
    r.services.Effect (x.run tx r).services tx (moduleAddress tuning.settings.feeCollector) x.payer
      r.context.height := by
  have hform : tx.checkForm = .ok () := by
    refine h.taken.form.resolve_left fun hre => hmode ?_
    simpa [Context.isRecheck] using hre
  constructor
  · exact fun i a hi => h.signed.find?_of_signer hi
  · exact fun a ha => h.signed.find?_of_bystander ha
  · exact h.signed.header_eq
  · exact h.paid.balance (Transaction.fee_check_of_checkForm hform)
  · exact h.paid.allowances_charged hsound
  · exact BlockCounter.counted_of_increment h.taken.counted
  · rfl

namespace Handler

/-- An admission has exactly the effect of its transaction: nothing else changes in any service. -/
theorem effect_of_admitted (hrule : tuning.feeChecker = none) (hmode : r.context.mode ≠ .recheck)
    (hsound : r.services.allowances.Sound)
    (h : tuning.handler.handle tx false r = .ok outcome t) : ∃ payer, tx.feePayer = some payer ∧
      r.services.Effect t.services tx (moduleAddress tuning.settings.feeCollector) payer
        r.context.height := by
  obtain ⟨x, hfits, hrelay⟩ := fits_of_handle hrule h
  refine ⟨x.payer, hfits.paid.charged, ?_⟩
  rw [Stage.services_of_runAll_relay rfl hrelay]
  exact hfits.effect hmode hsound

end Handler

/-- A transfer whose fee is paid by an account that signs nothing. -/
def sponsoredTransfer : Transaction :=
  let tx := transfer 0 none
  let fee := { tx.authInfo.fee with granter := some bystander }
  let tx := { tx with authInfo := { tx.authInfo with fee := fee } }
  let signer : SignerData := ⟨unitKey.address, "unit", 0, 0, unitKey⟩
  { tx with signatures := [unitSignature (signer.signBytes tx .direct)] }

/-- The bystander pays up to 25 stake for the account of the unit key. -/
def sponsoredMemory : Memory :=
  { unitMemory with
    allowances := Allowances.new.grant bystander unitKey.address
      (some ⟨[⟨"stake", .clamp 25⟩]⟩) }

def sponsoredRun : Run Memory := ⟨.new "unit" 1 0, sponsoredMemory⟩

theorem sound_sponsoredMemory : sponsoredMemory.allowances.Sound := by
  apply Allowances.sound_new.grant
  intro limit hlimit
  obtain rfl := Option.some.inj hlimit
  decide

theorem sponsoredTransfer_accepted :
    Tuning.standard.handler.accepts sponsoredTransfer sponsoredRun = true := by decide +kernel

theorem sponsoredTransfer_effect : ∃ t payer,
    Tuning.standard.handler.handle sponsoredTransfer false sponsoredRun = .ok .accepted t ∧
    sponsoredTransfer.feePayer = some payer ∧
    sponsoredRun.services.Effect t.services sponsoredTransfer (moduleAddress "fee_collector") payer
      1 := by
  have hmode : sponsoredRun.context.mode ≠ .recheck := by decide
  obtain ⟨t, ht⟩ := Handler.eq_ok_of_accepts sponsoredTransfer_accepted
  obtain ⟨payer, hpayer, heffect⟩ := Handler.effect_of_admitted rfl hmode sound_sponsoredMemory ht
  exact ⟨t, payer, ht, hpayer, heffect⟩

end Tollgate
