import Tollgate.Proofs.Admission.Counting
import Tollgate.Proofs.Admission.Grants
import Tollgate.Proofs.Ledger.Alike
/-! Transactions that have no account in common commute. What one of them leaves is, for the other one,
like what was there before: it has the same outcome and does the same. What both of them change is the
balance of the collector and the count of the block, and there the order does not matter. -/
namespace Tollgate

open Call Relation

/-- The accounts that a transaction stands for: its signers, and the account its fee is taken from. -/
def Transaction.footprint (tx : Transaction) : List Address :=
  tx.signers ++ (tx.feePayer.map tx.feeSource).toList

/-- The account that fees are paid to. -/
def Tuning.collector (u : Tuning) : Address := moduleAddress u.settings.feeCollector

namespace Transaction

variable {tx : Transaction} {a : Address}

theorem mem_footprint_of_signer (h : a ∈ tx.signers) : a ∈ tx.footprint :=
  List.mem_append_left _ h

theorem mem_cons_footprint (collector : Address) (h : a ∈ tx.signers) :
    a ∈ collector :: tx.footprint := List.mem_cons_of_mem _ (mem_footprint_of_signer h)

theorem feeSource_mem_footprint {payer : Address} (h : tx.feePayer = some payer) :
    tx.feeSource payer ∈ tx.footprint := by
  unfold footprint
  rw [h]
  exact List.mem_append_right _ (List.mem_singleton_self _)

/-- Two banks in which the source of the fee holds the same, and the collector has room for the fee. -/
structure ChargeableAlike (tx : Transaction) (collector : Address) (b c : Bank) : Prop where
  source : ∀ payer, tx.feePayer = some payer → ∀ denom,
    b.balance (tx.feeSource payer) denom = c.balance (tx.feeSource payer) denom
  room : b.HasRoom collector tx.fee ∧ c.HasRoom collector tx.fee

/-- From two banks to two others, the fee was moved in neither of them or in both. -/
def ChargedAlike (tx : Transaction) (collector : Address) (b c b' c' : Bank) : Prop :=
  (b' = b ∧ c' = c) ∨ ∃ payer, tx.feePayer = some payer ∧
    b.Transfers (tx.feeSource payer) collector tx.fee b' ∧
    c.Transfers (tx.feeSource payer) collector tx.fee c'

/-- In both of them every balance is changed by the same amount. -/
theorem ChargedAlike.balance {collector : Address} {b c b' c' : Bank}
    (h : tx.ChargedAlike collector b c b' c') (a : Address) (denom : String) : ∃ lost gained,
      (b'.balance a denom).toNat + lost = (b.balance a denom).toNat + gained ∧
      (c'.balance a denom).toNat + lost = (c.balance a denom).toNat + gained := by
  rcases h with ⟨rfl, rfl⟩ | ⟨payer, -, hb, hc⟩
  · exact ⟨0, 0, rfl, rfl⟩
  · exact ⟨_, _, hb a denom, hc a denom⟩

end Transaction

/-- Two states of services in memory that are alike for a transaction, with balances that are related in
this way. -/
structure Memory.Alike (tx : Transaction) (collector : Address) (P : Bank → Bank → Prop)
    (s t : Memory) : Prop where
  accounts : s.accounts.AlikeAt (collector :: tx.footprint) t.accounts
  allowances : ∀ payer, tx.feePayer = some payer →
    s.allowances.AlikeAt (tx.feeSource payer) payer t.allowances
  relays : s.relays = t.relays
  bank : P s.bank t.bank

section Alike

variable {tuning : Tuning} {tx : Transaction} {collector : Address} {P Q : Bank → Bank → Prop}
  {ε α : Type}

namespace Memory

theorem lockstep_onAccounts {c : Call ε AccountBook α}
    (h : Lockstep (AccountBook.AlikeAt (collector :: tx.footprint)) c c) :
    Lockstep (Alike tx collector P) (onAccounts c) (onAccounts c) := by
  intro s t hst
  have hc := h _ _ hst.accounts
  unfold onAccounts
  revert hc
  generalize c s.accounts = x, c t.accounts = y
  rintro (⟨a, hb⟩ | ⟨e, hb⟩)
  · exact .ok a ⟨hb, hst.allowances, hst.relays, hst.bank⟩
  · exact .error e ⟨hb, hst.allowances, hst.relays, hst.bank⟩

theorem lockstep_onAllowances {payer : Address} (hp : tx.feePayer = some payer)
    {c : Call ε Allowances α}
    (h : Lockstep (Allowances.AlikeAt (tx.feeSource payer) payer) c c) :
    Lockstep (Alike tx collector P) (onAllowances c) (onAllowances c) := by
  intro s t hst
  have hc := h _ _ (hst.allowances payer hp)
  have honly {g g' : Allowances} (hg : g.AlikeAt (tx.feeSource payer) payer g') (other : Address)
      (hother : tx.feePayer = some other) : g.AlikeAt (tx.feeSource other) other g' := by
    obtain rfl := Option.some.inj (hp.symm.trans hother)
    exact hg
  unfold onAllowances
  revert hc
  generalize c s.allowances = x, c t.allowances = y
  rintro (⟨a, hg⟩ | ⟨e, hg⟩)
  · exact .ok a ⟨hst.accounts, honly hg, hst.relays, hst.bank⟩
  · exact .error e ⟨hst.accounts, honly hg, hst.relays, hst.bank⟩

theorem leads_onBank {c : Call ε Bank α} (h : Leads P Q c c) :
    Leads (Alike tx collector P) (Alike tx collector Q) (onBank c) (onBank c) := by
  intro s t hst
  have hc := h _ _ hst.bank
  unfold onBank
  revert hc
  generalize c s.bank = x, c t.bank = y
  rintro (⟨a, hb⟩ | ⟨e, hb⟩)
  · exact .ok a ⟨hst.accounts, hst.allowances, hst.relays, hb⟩
  · exact .error e ⟨hst.accounts, hst.allowances, hst.relays, hb⟩

theorem Alike.mono (hPQ : ∀ b c, P b c → Q b c) {s t : Memory} (h : Alike tx collector P s t) :
    Alike tx collector Q s t := ⟨h.accounts, h.allowances, h.relays, hPQ _ _ h.bank⟩

/-- A transaction does not look at the count of its block once it is counted. -/
theorem Alike.withCounters {s t : Memory} (h : Alike tx collector P s t) (k k' : BlockCounter) :
    Alike tx collector P { s with counter := k } { t with counter := k' } :=
  ⟨h.accounts, h.allowances, h.relays, h.bank⟩

end Memory

namespace Attempt

variable {q : Attempt Memory} {granter grantee : Address}

theorem granter_mem_footprint (h : q.Names granter grantee) : granter ∈ q.tx.footprint :=
  (feeSource_of_names h.2 h).1 ▸ Transaction.feeSource_mem_footprint h.2

/-- The allowance that a call names is the same in states that are alike for it. -/
theorem find?_of_alike {s t : Memory} (h : Memory.Alike q.tx collector P s t)
    (hn : q.Names granter grantee) :
    s.allowances.find? granter grantee = t.allowances.find? granter grantee :=
  (feeSource_of_names hn.2 hn).1 ▸ h.allowances grantee hn.2

end Attempt

namespace Tuning

theorem lockstep_alike (hrule : tuning.feeChecker = none) : tuning.wiring.Lockstep
    (Memory.Alike tx tuning.collector P) tuning.wiring tx where
  params _ _ hst := hst.accounts.params
  moduleAddress := rfl
  feeCollector := rfl
  acceptsOption := rfl
  signatureGas := rfl
  checkFee c i := by
    rw [Gate.checkFee_eq hrule]
    rfl
  collector := .reading fun _ _ hst => hst.accounts.account _ List.mem_cons_self
  source payer hp := .reading fun _ _ hst =>
    hst.accounts.account _ (List.mem_cons_of_mem _ (Transaction.feeSource_mem_footprint hp))
  signer a ha := .reading fun _ _ hst =>
    hst.accounts.account a (Transaction.mem_cons_footprint _ ha)
  setKey a ha key := Memory.lockstep_onAccounts
    (AccountBook.lockstep_setKey (Transaction.mem_cons_footprint _ ha) key)
  advance a ha := Memory.lockstep_onAccounts
    (AccountBook.lockstep_advanceSequence (Transaction.mem_cons_footprint _ ha))
  allowances := by
    rw [wiring_allowances]
    cases tuning.grants with
    | false => exact .none
    | true =>
      exact .some fun payer fee hcharges => Memory.lockstep_onAllowances hcharges.1
        (Allowances.lockstep_spend _ _ fee)
  signBytes mode data := .reading fun _ _ _ => rfl
  checkSignature key message signature := .ofExcept _
  relays := by
    rw [wiring_relays]
    cases tuning.relays with
    | false => exact .none
    | true => exact .some fun action packet => .reading fun _ _ hst => by rw [hst.relays]

theorem deductsAlike (hrule : tuning.feeChecker = none) (hfee : tx.fee.check = .ok ()) {b c : Bank}
    (h : tx.ChargeableAlike tuning.collector b c) : tuning.wiring.DeductsAlike
      (Memory.Alike tx tuning.collector fun b' c' => b' = b ∧ c' = c)
      (Memory.Alike tx tuning.collector (tx.ChargedAlike tuning.collector b c)) tuning.wiring tx := by
  rintro payer fee ⟨hp, context, priority, hchecked⟩
  -- the standard rule charges the fee that is stated, whatever the context
  rw [Gate.checkFee_eq hrule] at hchecked
  obtain ⟨-, rfl, -⟩ := Gate.standard_eq_ok_iff.1 hchecked
  refine Memory.leads_onBank ?_
  rintro _ _ ⟨rfl, rfl⟩
  refine (Bank.agrees_deduct hfee (h.source payer hp) h.room.1 h.room.2).mono ?_
  rintro b' c' (hsame | ⟨hmoved, hmoved'⟩)
  · exact .inl hsame
  · exact .inr ⟨payer, hp, hmoved, hmoved'⟩

end Tuning
end Alike

section Footprint

variable {σ : Type} {w : Wiring σ} {book : σ → AccountBook} {tx : Transaction} {simulate : Bool}

/-- Only accounts of signers are changed. -/
theorem Change.book_modify (hw : w.KeepsBook book) {s : Stage} {r t : Run σ}
    (h : Change w tx simulate s r t) : book t.services = book r.services ∨
      ∃ a ∈ tx.signers, ∃ f, book t.services = (book r.services).modify a f := by
  rcases h.book_cases hw with h | ⟨-, -, a, ha, key, -, -, h⟩ | ⟨-, -, a, ha, h⟩
  · exact .inl h
  · exact .inr ⟨a, ha, _, h.trans (AccountBook.after_setKey a key _)⟩
  · rcases AccountBook.after_advanceSequence a (book r.services) with hsame | ⟨n, hn⟩
    · exact .inl (h.trans hsame)
    · obtain ⟨_, -, -, hset⟩ := AccountBook.advanceSequence_eq_ok_iff.1 hn
      exact .inr ⟨a, ha, _, h.trans hset⟩

namespace Stage

variable {ss : List Stage} {r t : Run σ}

theorem find?_of_reached (hw : w.KeepsBook book)
    (h : ReflTransGen (Changes w tx simulate ss) r t) {a : Address} (ha : a ∉ tx.signers) :
    (book t.services).find? a = (book r.services).find? a := by
  refine eq_of_reached (f := fun x => (book x.services).find? a) (fun s _ x y hc => ?_) h
  rcases hc.book_modify hw with hsame | ⟨b, hb, f, hmodify⟩
  · rw [hsame]
  · have hne : b ≠ a := fun he => ha (he ▸ hb)
    rw [hmodify, AccountBook.find?_modify, if_neg hne]

theorem header_of_reached (hw : w.KeepsBook book)
    (h : ReflTransGen (Changes w tx simulate ss) r t) :
    (book t.services).header = (book r.services).header := by
  refine eq_of_reached (f := fun x => (book x.services).header) (fun s _ x y hc => ?_) h
  rcases hc.book_modify hw with hsame | ⟨b, -, f, hmodify⟩
  · rw [hsame]
  · rw [hmodify, AccountBook.header_modify]

end Stage
end Footprint

/-- The context of a run outside simulation that has just got this position in its block. -/
def Context.counted (c : Context) (tx : Transaction) (i : UInt32) : Context :=
  (c.reset false (c.freshMeter tx false)).placed (some i)

/-- One call of the handler in the canonical order, outside simulation. -/
def Tuning.attempt (u : Tuning) (c : Context) (tx : Transaction) : Attempt Memory :=
  ⟨u.handler, c, tx, false⟩

section Calls

variable {tuning : Tuning} {c d : Context} {tx ty : Transaction} {s t : Memory} {height : UInt64}

namespace Tuning

theorem charges_attempt (hrule : tuning.feeChecker = none) (hfee : tx.fee.check = .ok ()) :
    (tuning.attempt c tx).Charges tuning := ⟨rfl, hrule, rfl, hfee⟩

theorem find?_leaves {a : Address} (ha : a ∉ tx.signers) :
    ((tuning.attempt c tx).leaves s).accounts.find? a = s.accounts.find? a :=
  Stage.find?_of_reached tuning.keepsBook ((tuning.attempt c tx).reached s) ha

theorem header_leaves : ((tuning.attempt c tx).leaves s).accounts.header = s.accounts.header :=
  Stage.header_of_reached tuning.keepsBook ((tuning.attempt c tx).reached s)

theorem relays_leaves : ((tuning.attempt c tx).leaves s).relays = s.relays :=
  Stage.relays_of_reached ((tuning.attempt c tx).reached s)

/-- Whatever becomes of a call, either its fee was moved or no balance has changed. -/
theorem bank_leaves (hrule : tuning.feeChecker = none) (hfee : tx.fee.check = .ok ()) :
    ((tuning.attempt c tx).leaves s).bank = s.bank ∨ ∃ payer, tx.feePayer = some payer ∧
      s.bank.Transfers (tx.feeSource payer) tuning.collector tx.fee
        ((tuning.attempt c tx).leaves s).bank := by
  rcases Attempt.purses_cases (charges_attempt (c := c) hrule hfee) s with
    ⟨-, -, hbank, -⟩ | ⟨-, u, payer, hu, -, -, ⟨-, hbank⟩ | ⟨-, hpays⟩⟩
  · exact .inl hbank
  · exact .inl hbank
  · refine .inr ⟨payer, hpays.charged, ?_⟩
    rw [← hu]
    exact hpays.balance hfee

/-- As long as its block has room, a call is counted and goes on behind the stages that count it. -/
theorem handle_of_room (tuning : Tuning) (tx : Transaction) (hc : c.height = height)
    (hroom : (s.counter.atHeight height).count.toNat + 1 < 2 ^ 32) :
    ∃ counter, s.counter.Counted counter height tx.typeUrls ∧
      tuning.handler.handle tx false ⟨c, s⟩ =
        Stage.runAll tuning.wiring tx false (Stage.canonical.drop 3)
          ⟨c.counted tx (s.counter.atHeight height).count, { s with counter := counter }⟩ := by
  subst hc
  obtain ⟨counter, hcount⟩ : ∃ counter, BlockCounter.increment c.height tx.typeUrls s.counter =
      .ok (s.counter.atHeight c.height).count counter :=
    ⟨_, BlockCounter.increment_eq_ok_iff.2 ⟨hroom, rfl, rfl⟩⟩
  refine ⟨counter, BlockCounter.counted_of_increment hcount, Stage.runAll_canonical_of_counted ?_⟩
  exact Memory.onCounter_eq_ok_iff.2 ⟨counter, hcount, rfl⟩

theorem counted_leaves (hc : c.height = height)
    (hroom : (s.counter.atHeight height).count.toNat + 1 < 2 ^ 32) :
    s.counter.Counted ((tuning.attempt c tx).leaves s).counter height tx.typeUrls := by
  obtain ⟨counter, hcounted, hrest⟩ := handle_of_room tuning tx hc hroom
  have hend : after (tuning.handler.handle tx false) ⟨c, s⟩ =
      after (Stage.runAll tuning.wiring tx false (Stage.canonical.drop 3)) ⟨c.counted tx
        (s.counter.atHeight height).count, { s with counter := counter }⟩ := by
    simp only [after, hrest]
  have hlater : (after (tuning.handler.handle tx false) ⟨c, s⟩).services.counter = counter := by
    rw [hend]
    exact Stage.counter_of_reached (by decide) (Stage.within_runAll _ _)
  rw [← hlater] at hcounted
  exact hcounted

end Tuning

/-- The second of two runs has the same context but for the position in its block, as stated. -/
def Run.PlacedAt (i j : UInt32) (r t : Run Memory) : Prop :=
  r.context.txIndex = some i ∧ t.context = r.context.placed (some j)

namespace Tuning

theorem leads_rest (hrule : tuning.feeChecker = none) (hfee : tx.fee.check = .ok ()) {b c : Bank}
    (h : tx.ChargeableAlike tuning.collector b c) : Leads
      (Run.Parallel False (Memory.Alike tx tuning.collector fun b' c' => b' = b ∧ c' = c))
      (Run.Parallel False (Memory.Alike tx tuning.collector (tx.ChargedAlike tuning.collector b c)))
      (Stage.runAll tuning.wiring tx false (Stage.canonical.drop 3))
      (Stage.runAll tuning.wiring tx false (Stage.canonical.drop 3)) := by
  have hparts : Stage.canonical.drop 3 =
      Stage.intake.drop 3 ++ .fee :: (Stage.signing ++ [.relay]) := rfl
  rw [hparts]
  exact Stage.leads_runAll_fee (lockstep_alike hrule) (lockstep_alike hrule)
    (fun _ _ hst => hst.mono fun _ _ => .inl) (deductsAlike hrule hfee h) (by decide) (by decide)

/-- Behind the stages that count it, a call has the same outcome over two states that are alike for its
transaction, and does the same to both. -/
theorem agrees_rest (hrule : tuning.feeChecker = none) (hfee : tx.fee.check = .ok ()) {i j : UInt32}
    (h : Memory.Alike tx tuning.collector (tx.ChargeableAlike tuning.collector) s t) :
    Agrees (fun x y => x.PlacedAt i j y ∧ Memory.Alike tx tuning.collector
        (tx.ChargedAlike tuning.collector s.bank t.bank) x.services y.services)
      (Stage.runAll tuning.wiring tx false (Stage.canonical.drop 3) ⟨c.counted tx i, s⟩)
      (Stage.runAll tuning.wiring tx false (Stage.canonical.drop 3) ⟨c.counted tx j, t⟩) := by
  -- the relation of the runs leaves the position open, but no later stage gives another one
  have hothers : ∀ x ∈ Stage.canonical.drop 3, x ≠ .setup ∧ x ≠ .blockIndex := by decide
  have hindex (s : Memory) (k : UInt32) : (after (Stage.runAll tuning.wiring tx false
      (Stage.canonical.drop 3)) ⟨c.counted tx k, s⟩).context.txIndex = some k :=
    Stage.eq_of_reached (f := fun x => x.context.txIndex) (fun x hx _ _ hc => hc.txIndex_eq (hothers x hx))
      (Stage.within_runAll _ _)
  have hstart : Run.Parallel False (Memory.Alike tx tuning.collector fun b c => b = s.bank ∧ c = t.bank)
      ⟨c.counted tx i, s⟩ ⟨c.counted tx j, t⟩ :=
    ⟨⟨some j, rfl, nofun⟩, h.accounts, h.allowances, h.relays, rfl, rfl⟩
  have hrun := leads_rest hrule hfee h.bank _ _ hstart
  obtain ⟨⟨k, hcontext, -⟩, hservices⟩ := hrun.after
  refine hrun.of_after ⟨⟨hindex s i, ?_⟩, hservices⟩
  have hk : k = some j := by
    rw [← hindex t j, hcontext]
    rfl
  rw [hcontext, hk]

/-- Two transactions that stand for different accounts, neither of them for the collector, with canonical
fees. There is room for both of them: with the collector for the fees, and in the block. -/
structure Independent (tuning : Tuning) (s : Memory) (height : UInt64) (tx ty : Transaction) :
    Prop where
  disjoint : ∀ a ∈ tx.footprint, a ∉ ty.footprint
  collector : tuning.collector ∉ tx.footprint ∧ tuning.collector ∉ ty.footprint
  fee : tx.fee.check = .ok () ∧ ty.fee.check = .ok ()
  room : ∀ denom, (s.bank.balance tuning.collector denom).toNat + (tx.fee.amountOf denom).toNat +
    (ty.fee.amountOf denom).toNat < 2 ^ 128
  index : (s.counter.atHeight height).count.toNat + 2 < 2 ^ 32

namespace Independent

theorem symm (h : tuning.Independent s height tx ty) : tuning.Independent s height ty tx where
  disjoint a hy hx := h.disjoint a hx hy
  collector := h.collector.symm
  fee := h.fee.symm
  room denom := by
    have hroom := h.room denom
    omega
  index := h.index

/-- The other call takes nothing from the source of the fee, and leaves room with the collector. -/
theorem chargeable (hrule : tuning.feeChecker = none) (h : tuning.Independent s height tx ty) :
    tx.ChargeableAlike tuning.collector s.bank ((tuning.attempt d ty).leaves s).bank := by
  have hroom : s.bank.HasRoom tuning.collector tx.fee := by
    intro denom
    have hboth := h.room denom
    omega
  rcases bank_leaves (c := d) hrule h.fee.2 with hsame | ⟨other, hother, hmoved⟩
  · rw [hsame]
    exact ⟨fun _ _ _ => rfl, hroom, hroom⟩
  · -- the other fee was moved: not from this source, and into the room for both
    have hsource := Transaction.feeSource_mem_footprint hother
    refine ⟨fun payer hp denom => ?_, hroom, fun denom => ?_⟩
    · have hmine := Transaction.feeSource_mem_footprint hp
      refine (hmoved.balance_of_ne (fun he => ?_) (fun he => ?_) denom).symm
      · exact h.disjoint _ hmine (he ▸ hsource)
      · exact h.collector.1 (he ▸ hmine)
    · have hboth := h.room denom
      have hother := hmoved.balance_collector (fun he => h.collector.2 (he ▸ hsource)) denom
      omega

/-- For one transaction, what a call of the other one leaves is like what was there before. -/
theorem alike (hrule : tuning.feeChecker = none) (h : tuning.Independent s height tx ty) :
    Memory.Alike tx tuning.collector (tx.ChargeableAlike tuning.collector) s
      ((tuning.attempt d ty).leaves s) where
  accounts := by
    refine ⟨(congrArg Prod.fst header_leaves).symm, fun a ha => (find?_leaves fun hsigner => ?_).symm⟩
    have hy := Transaction.mem_footprint_of_signer hsigner
    rcases List.mem_cons.1 ha with rfl | ha
    · exact h.collector.2 hy
    · exact h.disjoint a ha hy
  allowances payer hp := by
    refine (Attempt.find?_of_not_names (charges_attempt hrule h.fee.2) fun hn => ?_).symm
    exact h.disjoint _ (Transaction.feeSource_mem_footprint hp) (Attempt.granter_mem_footprint hn)
  relays := relays_leaves.symm
  bank := h.chargeable hrule

/-- There is room in the block for each of the calls, and for the other one after it. -/
theorem counted (h : tuning.Independent s height tx ty) (hc : c.height = height) :
    s.counter.Counted ((tuning.attempt c tx).leaves s).counter height tx.typeUrls ∧
    (((tuning.attempt c tx).leaves s).counter.atHeight height).count =
      (s.counter.atHeight height).count + 1 ∧
    (((tuning.attempt c tx).leaves s).counter.atHeight height).count.toNat + 1 < 2 ^ 32 := by
  have hindex := h.index
  have hcounted : s.counter.Counted ((tuning.attempt c tx).leaves s).counter height tx.typeUrls :=
    counted_leaves hc (by omega)
  have hone : (1 : UInt32).toNat = 1 := rfl
  refine ⟨hcounted, ?_, ?_⟩
  · rw [hcounted.atHeight_eq, ← UInt32.toNat_inj, hcounted.count, UInt32.toNat_add, hone]
    omega
  · rw [hcounted.atHeight_eq, hcounted.count]
    omega

/-- A call has the same outcome whether the other call comes before it or not, and does the same. -/
theorem agrees (hrule : tuning.feeChecker = none) (h : tuning.Independent s height tx ty)
    (hc : c.height = height) (hd : d.height = height) :
    Agrees (fun x y =>
        x.PlacedAt (s.counter.atHeight height).count ((s.counter.atHeight height).count + 1) y ∧
        Memory.Alike tx tuning.collector (tx.ChargedAlike tuning.collector s.bank
          ((tuning.attempt d ty).leaves s).bank) x.services y.services)
      ((tuning.attempt c tx).result s)
      ((tuning.attempt c tx).result ((tuning.attempt d ty).leaves s)) := by
  have hindex := h.index
  obtain ⟨-, hnext, hroom'⟩ := h.symm.counted hd
  have hroom : (s.counter.atHeight height).count.toNat + 1 < 2 ^ 32 := by omega
  obtain ⟨counter, -, hrest⟩ := handle_of_room tuning tx hc hroom
  obtain ⟨counter', -, hrest'⟩ := handle_of_room tuning tx hc hroom'
  rw [hnext] at hrest'
  change Agrees _ (tuning.handler.handle tx false ⟨c, s⟩) (tuning.handler.handle tx false ⟨c, _⟩)
  rw [hrest, hrest']
  exact agrees_rest hrule h.fee.1 ((h.alike hrule).withCounters counter counter')

end Independent
end Tuning

/-- Two states of services in memory that cannot be told apart by what they hold. -/
structure Memory.Same (s t : Memory) : Prop where
  account : ∀ a, s.accounts.find? a = t.accounts.find? a
  header : s.accounts.header = t.accounts.header
  balance : ∀ a denom, s.bank.balance a denom = t.bank.balance a denom
  allowance : ∀ granter grantee,
    s.allowances.find? granter grantee = t.allowances.find? granter grantee
  relays : s.relays = t.relays
  counter : s.counter.height = t.counter.height ∧ s.counter.count = t.counter.count ∧
    ∀ url, s.counter.typeCount url = t.counter.typeCount url

/-- What belongs to one of two calls at most is the same in the end: its owner does the same to it, before
the other call or after it, and the other call leaves it alone. -/
theorem eq_of_owned {α : Type} {x x₁ x₂ x₁₂ x₂₁ : α} {first second : Prop}
    (hone : first → ¬second) (hfirst : first → x₁ = x₂₁) (hsecond : second → x₂ = x₁₂)
    (hothers : ¬first → x₁ = x ∧ x₂₁ = x₂) (hothers' : ¬second → x₂ = x ∧ x₁₂ = x₁) :
    x₁₂ = x₂₁ := by
  by_cases hx : first
  · exact (hothers' (hone hx)).2.trans (hfirst hx)
  · obtain ⟨hsame, hafter⟩ := hothers hx
    by_cases hy : second
    · exact (hsecond hy).symm.trans hafter.symm
    · obtain ⟨hsame', hafter'⟩ := hothers' hy
      rw [hafter, hafter', hsame, hsame']

namespace Tuning.Independent

/-- Both orders leave the same behind. -/
theorem same_leaves (hrule : tuning.feeChecker = none) (h : tuning.Independent s height tx ty)
    (hc : c.height = height) (hd : d.height = height) :
    let p := tuning.attempt c tx
    let q := tuning.attempt d ty
    (q.leaves (p.leaves s)).Same (p.leaves (q.leaves s)) := by
  intro p q
  have hp : Memory.Alike tx tuning.collector (tx.ChargedAlike tuning.collector s.bank
      (q.leaves s).bank) (p.leaves s) (p.leaves (q.leaves s)) := (h.agrees hrule hc hd).after.2
  have hq : Memory.Alike ty tuning.collector (ty.ChargedAlike tuning.collector s.bank
      (p.leaves s).bank) (q.leaves s) (q.leaves (p.leaves s)) := (h.symm.agrees hrule hd hc).after.2
  constructor
  · intro a
    have hone : a ∈ tx.signers → a ∉ ty.signers := fun hx hy => h.disjoint a
      (Transaction.mem_footprint_of_signer hx) (Transaction.mem_footprint_of_signer hy)
    exact eq_of_owned hone
      (fun hx => hp.accounts.account a (Transaction.mem_cons_footprint _ hx))
      (fun hy => hq.accounts.account a (Transaction.mem_cons_footprint _ hy))
      (fun hx => ⟨find?_leaves hx, find?_leaves hx⟩)
      fun hy => ⟨find?_leaves hy, find?_leaves hy⟩
  · exact (header_leaves.trans header_leaves).trans (header_leaves.trans header_leaves).symm
  · -- each call adds the same difference in both orders
    intro a denom
    obtain ⟨lost, gained, hbefore, hafter⟩ := hp.bank.balance a denom
    obtain ⟨lost', gained', hbefore', hafter'⟩ := hq.bank.balance a denom
    rw [← Amount.toNat_inj]
    omega
  · intro granter grantee
    have hone : p.Names granter grantee → ¬q.Names granter grantee := fun hx hy =>
      h.disjoint granter (Attempt.granter_mem_footprint hx) (Attempt.granter_mem_footprint hy)
    have hpCharges : p.Charges tuning := charges_attempt hrule h.fee.1
    have hqCharges : q.Charges tuning := charges_attempt hrule h.fee.2
    exact eq_of_owned hone (fun hx => Attempt.find?_of_alike hp hx)
      (fun hy => Attempt.find?_of_alike hq hy)
      (fun hx => ⟨Attempt.find?_of_not_names hpCharges hx, Attempt.find?_of_not_names hpCharges hx⟩)
      fun hy => ⟨Attempt.find?_of_not_names hqCharges hy, Attempt.find?_of_not_names hqCharges hy⟩
  · exact (relays_leaves.trans relays_leaves).trans (relays_leaves.trans relays_leaves).symm
  · obtain ⟨hfirst, -, hroom⟩ := h.counted hc
    obtain ⟨hfirst', -, hroom'⟩ := h.symm.counted hd
    exact hfirst.comm (counted_leaves hd hroom) hfirst' (counted_leaves hc hroom')

/-- Calls of independent transactions at one height commute. Each of them has the same outcome before the
other one and after it, in the same context but for the position in the block, and the two orders leave
the same services behind. -/
theorem commute (hrule : tuning.feeChecker = none) (h : tuning.Independent s height tx ty)
    (hc : c.height = height) (hd : d.height = height) :
    let p := tuning.attempt c tx
    let q := tuning.attempt d ty
    let i := (s.counter.atHeight height).count
    Agrees (Run.PlacedAt i (i + 1)) (p.result s) (p.result (q.leaves s)) ∧
    Agrees (Run.PlacedAt i (i + 1)) (q.result s) (q.result (p.leaves s)) ∧
    (q.leaves (p.leaves s)).Same (p.leaves (q.leaves s)) := by
  intro p q i
  refine ⟨?_, ?_, h.same_leaves hrule hc hd⟩
  · exact (h.agrees hrule hc hd).mono fun _ _ hxy => hxy.1
  · exact (h.symm.agrees hrule hd hc).mono fun _ _ hxy => hxy.1

end Tuning.Independent
end Calls

/-- A transfer of the bystander, who has no key. Its fee was moved when it is refused. -/
def keylessTransfer : Transaction where
  body := ⟨[.send ⟨bystander, .replicate 20 9, ⟨[⟨"stake", .clamp 5⟩]⟩⟩], "", 0, [], []⟩
  authInfo := ⟨[⟨none, .single .direct, 0⟩], ⟨⟨[⟨"stake", .clamp 10⟩]⟩, 100000, none, none⟩⟩
  signatures := [[0]]

def unitAttempt : Attempt Memory :=
  Tuning.standard.attempt (.new "unit" 1 0) (signedTransfer 0 none)

def keylessAttempt : Attempt Memory :=
  Tuning.standard.attempt { Context.new "unit" 1 0 with mode := .check } keylessTransfer

theorem balance_collector_unitMemory (denom : String) :
    unitMemory.bank.balance Tuning.standard.collector denom = .zero := by
  have hunit : unitKey.address ≠ Tuning.standard.collector := by decide +kernel
  have hother : bystander ≠ Tuning.standard.collector := by decide +kernel
  exact (Bank.balance_setBalance_of_ne hother).trans (Bank.balance_setBalance_of_ne hunit)

theorem keylessTransfer_independent :
    Tuning.standard.Independent unitMemory 1 (signedTransfer 0 none) keylessTransfer where
  disjoint := by decide +kernel
  collector := by decide +kernel
  fee := by decide +kernel
  room denom := by
    have hten : ((⟨[⟨"stake", .clamp 10⟩]⟩ : Coins).amountOf denom).toNat ≤ 10 := by
      rw [Coins.amountOf_cons]
      split
      · decide
      · simp [Coins.amountOf]
    rw [balance_collector_unitMemory]
    change 0 + ((⟨[⟨"stake", .clamp 10⟩]⟩ : Coins).amountOf denom).toNat +
      ((⟨[⟨"stake", .clamp 10⟩]⟩ : Coins).amountOf denom).toNat < 2 ^ 128
    omega
  index := by decide +kernel

/-- The two calls commute: one of them is admitted, and the other one is refused and leaves its fee with
the collector. -/
theorem keylessTransfer_commutes : (∃ t, unitAttempt.result unitMemory = .ok .accepted t) ∧
    keylessAttempt.isAdmitted unitMemory = false ∧
    (keylessAttempt.leaves unitMemory).bank.balance bystander "stake" = .clamp 90 ∧
    Agrees (Run.PlacedAt 0 1) (unitAttempt.result unitMemory)
      (unitAttempt.result (keylessAttempt.leaves unitMemory)) ∧
    Agrees (Run.PlacedAt 0 1) (keylessAttempt.result unitMemory)
      (keylessAttempt.result (unitAttempt.leaves unitMemory)) ∧
    (keylessAttempt.leaves (unitAttempt.leaves unitMemory)).Same
      (unitAttempt.leaves (keylessAttempt.leaves unitMemory)) := by
  have hcommute := Tuning.Independent.commute rfl keylessTransfer_independent
    (c := .new "unit" 1 0) (d := { Context.new "unit" 1 0 with mode := .check }) rfl rfl
  exact ⟨Handler.eq_ok_of_accepts signedTransfer_accepted, by decide +kernel, by decide +kernel,
    hcommute⟩

end Tollgate
