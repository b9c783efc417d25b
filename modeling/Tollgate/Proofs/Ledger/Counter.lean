import Tollgate.Ledger.Counter
import Tollgate.Proofs.Ledger.Outcome
/-! The counter of a block after one more transaction: its position is taken, and every message is
tallied under its type. -/
namespace Tollgate.BlockCounter

variable {c d : BlockCounter} {height : UInt64} {urls : List String} {index : UInt32}

theorem height_atHeight (c : BlockCounter) (height : UInt64) : (c.atHeight height).height = height := by
  unfold atHeight
  by_cases h : c.height = height <;> simp [h]

theorem find?_addTally (tallies : Table String UInt64) (u url : String) :
    ((addTally tallies u).find? url).getD 0 =
      (tallies.find? url).getD 0 + if u = url then 1 else 0 := by
  unfold addTally
  rw [Table.find?_insert]
  by_cases h : u = url <;> simp [h]

theorem ofNat_count_cons (u url : String) (urls : List String) :
    UInt64.ofNat ((u :: urls).count url) =
      (if u = url then 1 else 0) + .ofNat (urls.count url) := by
  by_cases h : u = url
  · rw [if_pos h, h, List.count_cons_self, Nat.add_comm, UInt64.ofNat_add]
    rfl
  · rw [if_neg h, List.count_cons_of_ne h, UInt64.zero_add]

theorem find?_foldl_addTally (tallies : Table String UInt64) (urls : List String) (url : String) :
    ((urls.foldl addTally tallies).find? url).getD 0 =
      (tallies.find? url).getD 0 + .ofNat (urls.count url) := by
  induction urls generalizing tallies with
  | nil => exact (UInt64.add_zero _).symm
  | cons u urls ih =>
    rw [List.foldl_cons, ih, find?_addTally, ofNat_count_cons, UInt64.add_assoc]

theorem increment_eq_ok_iff : increment height urls c = .ok index d ↔
    (c.atHeight height).count.toNat + 1 < 2 ^ 32 ∧ index = (c.atHeight height).count ∧
      d = { c.atHeight height with
        count := (c.atHeight height).count + 1
        tallies := urls.foldl addTally (c.atHeight height).tallies } := by
  unfold increment
  by_cases h : (c.atHeight height).count.toNat + 1 < 2 ^ 32
  · rw [if_pos h, EStateM.Result.ok.injEq]
    constructor
    · rintro ⟨rfl, rfl⟩
      exact ⟨h, rfl, rfl⟩
    · rintro ⟨-, rfl, rfl⟩
      exact ⟨rfl, rfl⟩
  · rw [if_neg h]
    constructor
    · intro hfail
      cases hfail
    · rintro ⟨hroom, -⟩
      exact absurd hroom h

/-- A full counter refuses the next transaction of its block and stays as it is. -/
theorem atomic_increment (height : UInt64) (urls : List String) :
    Call.Atomic (increment height urls) := by
  intro c e d h
  unfold increment at h
  by_cases hroom : (c.atHeight height).count.toNat + 1 < 2 ^ 32
  · rw [if_pos hroom] at h
    cases h
  · rw [if_neg hroom] at h
    obtain rfl := (EStateM.Result.error.inj h).2
    have hfresh : (0 : UInt32).toNat + 1 < 2 ^ 32 := by decide
    unfold atHeight at hroom ⊢
    split at hroom
    · next hsame => rw [if_pos hsame]
    · exact absurd hfresh hroom

/-- The second counter has counted one more transaction of this block than the first. -/
structure Counted (c d : BlockCounter) (height : UInt64) (urls : List String) : Prop where
  block : d.height = height
  count : d.count.toNat = (c.atHeight height).count.toNat + 1
  tallies : ∀ url, d.typeCount url = (c.atHeight height).typeCount url + .ofNat (urls.count url)

theorem counted_of_increment (h : increment height urls c = .ok index d) :
    c.Counted d height urls := by
  obtain ⟨hroom, -, rfl⟩ := increment_eq_ok_iff.1 h
  refine ⟨height_atHeight c height, ?_, fun url => find?_foldl_addTally _ urls url⟩
  have hone : (1 : UInt32).toNat = 1 := rfl
  rw [UInt32.toNat_add, hone]
  exact Nat.mod_eq_of_lt hroom

theorem Counted.atHeight_eq (h : c.Counted d height urls) : d.atHeight height = d := if_pos h.block

/-- The order in which two transactions of a block are counted makes no difference in the end. -/
theorem Counted.comm {c₁ c₂ d₁ d₂ : BlockCounter} {urls' : List String}
    (h₁ : c.Counted c₁ height urls) (h₂ : c₁.Counted c₂ height urls')
    (k₁ : c.Counted d₁ height urls') (k₂ : d₁.Counted d₂ height urls) :
    c₂.height = d₂.height ∧ c₂.count = d₂.count ∧ ∀ url, c₂.typeCount url = d₂.typeCount url := by
  refine ⟨h₂.block.trans k₂.block.symm, UInt32.toNat_inj.1 ?_, fun url => ?_⟩
  · rw [h₂.count, k₂.count, h₁.atHeight_eq, k₁.atHeight_eq, h₁.count, k₁.count]
  · rw [h₂.tallies, k₂.tallies, h₁.atHeight_eq, k₁.atHeight_eq, h₁.tallies, k₁.tallies,
      UInt64.add_assoc, UInt64.add_assoc, UInt64.add_comm (.ofNat (urls.count url))]

/-- In a block, the counter has counted these transactions, each given by the types of its messages. A
tally is the number of the messages as a word. -/
structure Shows (c : BlockCounter) (height : UInt64) (txs : List (List String)) : Prop where
  count : (c.atHeight height).count.toNat = txs.length
  tallies : ∀ url, (c.atHeight height).typeCount url = .ofNat (txs.flatten.count url)

namespace Shows

variable {txs : List (List String)}

theorem of_empty (hcount : (c.atHeight height).count = 0)
    (htallies : (c.atHeight height).tallies = .empty) : c.Shows height [] := by
  refine ⟨by rw [hcount]; rfl, fun url => ?_⟩
  unfold typeCount
  rw [htallies]
  rfl

/-- Nothing is counted in a new counter. -/
protected theorem new (height : UInt64) : new.Shows height [] := by
  refine of_empty ?_ ?_ <;> unfold atHeight <;> split <;> rfl

/-- A block that is not the current one starts from nothing. -/
theorem of_height_ne (h : c.height ≠ height) : c.Shows height [] := by
  have hfresh : c.atHeight height = ⟨height, 0, .empty⟩ := if_neg h
  exact of_empty (by rw [hfresh]) (by rw [hfresh])

theorem current (h : c.Shows height txs) (hc : c.height = height) :
    c.count.toNat = txs.length ∧ ∀ url, c.typeCount url = .ofNat (txs.flatten.count url) := by
  have hsame : c.atHeight height = c := if_pos hc
  have hcount := h.count
  have htallies := h.tallies
  rw [hsame] at hcount htallies
  exact ⟨hcount, htallies⟩

/-- As long as there is room, the next transaction gets the number of those before it. -/
theorem increment (h : c.Shows height txs) (hroom : txs.length < 2 ^ 32 - 1) (urls : List String) :
    ∃ i d, increment height urls c = .ok i d ∧ i.toNat = txs.length ∧ d.height = height ∧
      d.Shows height (txs ++ [urls]) := by
  have hspace : (c.atHeight height).count.toNat + 1 < 2 ^ 32 := by
    rw [h.count]
    omega
  obtain ⟨d, hd⟩ : ∃ d, BlockCounter.increment height urls c = .ok (c.atHeight height).count d :=
    ⟨_, increment_eq_ok_iff.2 ⟨hspace, rfl, rfl⟩⟩
  have hcounted := counted_of_increment hd
  refine ⟨_, d, hd, h.count, hcounted.block, ?_, fun url => ?_⟩
  · rw [hcounted.atHeight_eq, hcounted.count, h.count, List.length_append, List.length_singleton]
  · rw [hcounted.atHeight_eq, hcounted.tallies, h.tallies, List.flatten_concat, List.count_append,
      UInt64.ofNat_add]

/-- A full counter is the one of this block, and stays as it is. -/
theorem full (h : c.Shows height txs) (hfull : txs.length = 2 ^ 32 - 1) (urls : List String) :
    BlockCounter.increment height urls c = .error (.store "tx counter overflow") c ∧
      c.height = height := by
  have hc : c.height = height := by
    by_contra hne
    have hzero := h.count.symm.trans (of_height_ne hne).count
    rw [hfull] at hzero
    cases hzero
  have hsame : c.atHeight height = c := if_pos hc
  have hspace : ¬c.count.toNat + 1 < 2 ^ 32 := by
    rw [(h.current hc).1, hfull]
    omega
  refine ⟨?_, hc⟩
  unfold BlockCounter.increment
  rw [hsame, if_neg hspace]

end Shows
end Tollgate.BlockCounter
