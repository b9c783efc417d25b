import Tollgate.Proofs.Admission.Authentication
import Tollgate.Proofs.Signature.Encoding
/-! What a key demands of a signature, said without the walk that verifies it. Members and parts belong
together by the bits; where they meet, something is decided. Verification accepts exactly what the key
demands, and asks for the bytes to be signed where single keys meet single signatures, from left to right
up to the first place at which it fails. -/
namespace Tollgate

open Call

namespace SignatureData

/-- The part for a member of a threshold key, if its bit is set: as many parts come before it as bits
are set before. -/
def ofMember? (bits : List Bool) (signatures : List SignatureData) (i : Nat) : Option SignatureData :=
  if bits[i]? = some true then signatures[(bits.take i).count true]? else none

section OfMember

variable (bits : List Bool) (s : SignatureData) (ss : List SignatureData) (i : Nat)

@[simp] theorem ofMember?_nil : ofMember? [] ss i = none := by simp [ofMember?]

@[simp] theorem ofMember?_true_zero : ofMember? (true :: bits) (s :: ss) 0 = some s := by
  simp [ofMember?]

@[simp] theorem ofMember?_true_succ :
    ofMember? (true :: bits) (s :: ss) (i + 1) = ofMember? bits ss i := by simp [ofMember?]

@[simp] theorem ofMember?_false_zero : ofMember? (false :: bits) ss 0 = none := by simp [ofMember?]

@[simp] theorem ofMember?_false_succ :
    ofMember? (false :: bits) ss (i + 1) = ofMember? bits ss i := by simp [ofMember?]

@[simp] theorem ofMember?_no_parts : ofMember? bits [] i = none := by simp [ofMember?]

end OfMember

end SignatureData

open SignatureData

/-- A place in a key: the member to go to, on every level. -/
abbrev Place := List Nat

/-- From left to right, the members before the key they belong to. -/
def Place.Before : Place → Place → Prop
  | i :: p, j :: q => i < j ∨ i = j ∧ Before p q
  | _ :: _, [] => True
  | [], _ => False

theorem Place.Before.asymm {p q : Place} (h : p.Before q) : ¬q.Before p := by
  induction p generalizing q with
  | nil => exact h.elim
  | cons i p ih =>
    cases q with
    | nil => exact id
    | cons j q =>
      rintro (hlt | ⟨rfl, hqp⟩)
      · rcases h with hlt' | ⟨rfl, -⟩
        · exact Nat.lt_asymm hlt hlt'
        · exact Nat.lt_irrefl _ hlt
      · rcases h with hlt' | ⟨-, hpq⟩
        · exact Nat.lt_irrefl _ hlt'
        · exact ih hpq hqp

/-- A part of a key, a part of a signature, and the place at which they meet. -/
structure Meeting where
  place : Place
  key : PublicKey
  data : SignatureData

namespace PublicKey

variable {bytes : SignMode → Except SignatureError Bytes}

/-- The signature is what the key demands, where the bytes to be signed depend on the mode. A single
key demands a signature of these bytes, and a threshold key one bit for every member, enough bits that are
set, and from the members whose bits are set what they demand. -/
inductive Satisfied (bytes : SignMode → Except SignatureError Bytes) :
    PublicKey → SignatureData → Prop
  | single {key : SingleKey} {mode : SignMode} {signature message : Bytes}
      (hbytes : bytes mode = .ok message) (hcheck : key.verify message signature = .ok ()) :
      Satisfied bytes (.single key) (.single mode signature)
  | multi {threshold : UInt32} {keys : List PublicKey} {bits : List Bool}
      {signatures : List SignatureData} (hbits : bits.length = keys.length)
      (hmembers : ∀ i key s, keys[i]? = some key → ofMember? bits signatures i = some s →
        Satisfied bytes key s)
      (hmet : threshold.toNat ≤ bits.count true) :
      Satisfied bytes (.multisig threshold keys) (.multi bits signatures)

/-- Where the parts of a key meet those of a signature. A threshold signature with a wrong number of
bits meets the key as a whole only. -/
inductive Meets : PublicKey → SignatureData → Place → PublicKey → SignatureData → Prop
  | whole (key : PublicKey) (data : SignatureData) : Meets key data [] key data
  | member {threshold : UInt32} {keys : List PublicKey} {bits : List Bool}
      {signatures : List SignatureData} {i : Nat} {member key : PublicKey} {s data : SignatureData}
      {place : Place} (hbits : bits.length = keys.length) (hkey : keys[i]? = some member)
      (hs : ofMember? bits signatures i = some s) (h : Meets member s place key data) :
      Meets (.multisig threshold keys) (.multi bits signatures) (i :: place) key data

/-- What is decided at one place alone: a single signature is checked, bits are counted. -/
def Passes (bytes : SignMode → Except SignatureError Bytes) : PublicKey → SignatureData → Prop
  | .single key, .single mode signature =>
    ∃ message, bytes mode = .ok message ∧ key.verify message signature = .ok ()
  | .multisig threshold keys, .multi bits _ =>
    bits.length = keys.length ∧ threshold.toNat ≤ bits.count true
  | _, _ => False

theorem Satisfied.passes {key key' : PublicKey} {data data' : SignatureData} {place : Place}
    (h : key.Satisfied bytes data) (hmeets : Meets key data place key' data') :
    key'.Passes bytes data' := by
  induction hmeets with
  | whole key data =>
    cases h with
    | single hbytes hcheck => exact ⟨_, hbytes, hcheck⟩
    | multi hbits _ hmet => exact ⟨hbits, hmet⟩
  | member _ hkey hs _ ih =>
    cases h with
    | multi _ hmembers _ => exact ih (hmembers _ _ _ hkey hs)

mutual
theorem satisfied_of_passes : (key : PublicKey) → (data : SignatureData) →
    (∀ place key' data', Meets key data place key' data' → key'.Passes bytes data') →
      key.Satisfied bytes data
  | .single key, .single mode signature, h => by
    obtain ⟨message, hbytes, hcheck⟩ := h [] _ _ (.whole _ _)
    exact .single hbytes hcheck
  | .multisig threshold keys, .multi bits ss, h => by
    obtain ⟨hbits, hmet⟩ := h [] _ _ (.whole _ _)
    refine .multi hbits (fun i key s hkey hs => ?_) hmet
    exact satisfiedMembers_of_passes keys key (List.mem_of_getElem? hkey) s
      fun place key' data' hmeets => h (i :: place) key' data' (.member hbits hkey hs hmeets)
  | .single _, .multi _ _, h => (h [] _ _ (.whole _ _)).elim
  | .multisig _ _, .single _ _, h => (h [] _ _ (.whole _ _)).elim
theorem satisfiedMembers_of_passes : (keys : List PublicKey) → ∀ key ∈ keys,
    ∀ data : SignatureData,
      (∀ place key' data', Meets key data place key' data' → key'.Passes bytes data') →
        key.Satisfied bytes data
  | [] => nofun
  | key :: keys => List.forall_mem_cons.2 ⟨satisfied_of_passes key, satisfiedMembers_of_passes keys⟩
end

/-- A key is satisfied exactly if every meeting of its parts passes. -/
theorem satisfied_iff {key : PublicKey} {data : SignatureData} : key.Satisfied bytes data ↔
    ∀ place key' data', Meets key data place key' data' → key'.Passes bytes data' :=
  ⟨fun h _ _ _ => h.passes, satisfied_of_passes key data⟩

end PublicKey

namespace Meeting

/-- The same meeting, seen from the key of which its key is a member. -/
def below (i : Nat) (m : Meeting) : Meeting := { m with place := i :: m.place }

/-- The check that is run where a single key meets a single signature. -/
def task? (m : Meeting) : Option SignatureTask :=
  match m.key, m.data with
  | .single key, .single mode signature => some ⟨key, mode, signature⟩
  | _, _ => none

/-- Decides at this place alone. -/
def run {σ : Type} (check : SignatureTask → Call SignatureError σ PUnit) (m : Meeting) :
    Call SignatureError σ PUnit :=
  match m.key, m.data with
  | .single key, .single mode signature => check ⟨key, mode, signature⟩
  | .multisig threshold keys, .multi bits _ =>
    if bits.length ≠ keys.length then throw SignatureError.invalidFormat
    else if bits.count true < threshold.toNat then
      throw (SignatureError.thresholdNotMet (bits.count true) threshold)
    else pure ()
  | key, _ => throw (SignatureError.keyMismatch key.typeName)

end Meeting

namespace PublicKey

mutual
/-- All meetings in the order of their places. -/
def meetings : PublicKey → SignatureData → List Meeting
  | .multisig threshold keys, .multi bits signatures =>
    (if bits.length = keys.length then meetingsOf 0 keys bits signatures else []) ++
      [⟨[], .multisig threshold keys, .multi bits signatures⟩]
  | key, data => [⟨[], key, data⟩]
def meetingsOf : Nat → List PublicKey → List Bool → List SignatureData → List Meeting
  | n, key :: keys, true :: bits, s :: ss =>
    (meetings key s).map (Meeting.below n) ++ meetingsOf (n + 1) keys bits ss
  | n, _ :: keys, false :: bits, ss => meetingsOf (n + 1) keys bits ss
  | _, _, _, _ => []
end

/-- Where nothing has members, only the whole meets. -/
theorem mem_whole_iff {key : PublicKey} {data : SignatureData} {m : Meeting}
    (hnone : ∀ {i place key' data'}, ¬Meets key data (i :: place) key' data') :
    m ∈ [(⟨[], key, data⟩ : Meeting)] ↔ Meets key data m.place m.key m.data := by
  rw [List.mem_singleton]
  constructor
  · rintro rfl
    exact .whole _ _
  · obtain ⟨place, key', data'⟩ := m
    intro h
    cases place with
    | nil =>
      cases h
      rfl
    | cons i place => exact absurd h hnone

mutual
theorem mem_meetings_iff : (key : PublicKey) → (data : SignatureData) → {m : Meeting} →
    (m ∈ meetings key data ↔ Meets key data m.place m.key m.data)
  | .multisig threshold keys, .multi bits ss, m => by
    unfold meetings
    rw [List.mem_append, List.mem_singleton]
    constructor
    · rintro (hm | rfl)
      · split at hm
        · next hbits =>
          obtain ⟨i, member, s, place, hplace, hkey, hs, h⟩ := (mem_meetingsOf_iff keys bits ss).1 hm
          rw [hplace]
          exact .member hbits (by simpa using hkey) (by simpa using hs) h
        · cases hm
      · exact .whole _ _
    · obtain ⟨place, key, data⟩ := m
      rintro (_ | ⟨hbits, hkey, hs, h⟩)
      · exact .inr rfl
      · left
        rw [if_pos hbits]
        exact (mem_meetingsOf_iff keys bits ss).2 ⟨_, _, _, _, by rw [Nat.zero_add], hkey, hs, h⟩
  | .single _, .single _ _, _ => mem_whole_iff nofun
  | .single _, .multi _ _, _ => mem_whole_iff nofun
  | .multisig _ _, .single _ _, _ => mem_whole_iff nofun
theorem mem_meetingsOf_iff : (keys : List PublicKey) → (bits : List Bool) →
    (ss : List SignatureData) → {n : Nat} → {m : Meeting} → (m ∈ meetingsOf n keys bits ss ↔
      ∃ i member s place, m.place = (n + i) :: place ∧ keys[i]? = some member ∧
        ofMember? bits ss i = some s ∧ Meets member s place m.key m.data)
  | key :: keys, true :: bits, s :: ss, n, m => by
    unfold meetingsOf
    rw [List.mem_append, List.mem_map, mem_meetingsOf_iff keys bits ss]
    constructor
    · rintro (⟨m, hm, rfl⟩ | ⟨i, member, s', place, hplace, hkey, hs, h⟩)
      · exact ⟨0, key, s, m.place, rfl, rfl, ofMember?_true_zero _ _ _,
          (mem_meetings_iff key s).1 hm⟩
      · exact ⟨i + 1, member, s', place, by rw [hplace, Nat.add_right_comm, Nat.add_assoc], hkey,
          by rw [ofMember?_true_succ, hs], h⟩
    · rintro ⟨i, member, s', place, hplace, hkey, hs, h⟩
      cases i with
      | zero =>
        obtain rfl := Option.some.inj hkey
        obtain rfl := Option.some.inj hs
        obtain ⟨mplace, mkey, mdata⟩ := m
        obtain rfl : mplace = n :: place := hplace
        exact .inl ⟨⟨place, mkey, mdata⟩, (mem_meetings_iff key s).2 h, rfl⟩
      | succ i =>
        rw [ofMember?_true_succ] at hs
        exact .inr ⟨i, member, s', place, by rw [hplace, Nat.add_right_comm, Nat.add_assoc], hkey,
          hs, h⟩
  | key :: keys, false :: bits, ss, n, m => by
    unfold meetingsOf
    rw [mem_meetingsOf_iff keys bits ss]
    constructor
    · rintro ⟨i, member, s', place, hplace, hkey, hs, h⟩
      exact ⟨i + 1, member, s', place, by rw [hplace, Nat.add_right_comm, Nat.add_assoc], hkey,
        by rw [ofMember?_false_succ, hs], h⟩
    · rintro ⟨i, member, s', place, hplace, hkey, hs, h⟩
      cases i with
      | zero =>
        rw [ofMember?_false_zero] at hs
        cases hs
      | succ i =>
        rw [ofMember?_false_succ] at hs
        exact ⟨i, member, s', place, by rw [hplace, Nat.add_right_comm, Nat.add_assoc], hkey, hs, h⟩
  | [], _, _, _, _ => by simp [meetingsOf]
  | _ :: _, [], _, _, _ => by simp [meetingsOf]
  | _ :: _, true :: _, [], _, _ => by simp [meetingsOf]
end

mutual
theorem meetings_pairwise : (key : PublicKey) → (data : SignatureData) →
    (meetings key data).Pairwise fun m n => m.place.Before n.place
  | .multisig threshold keys, .multi bits ss => by
    unfold meetings
    split
    · refine List.pairwise_append.2 ⟨meetingsOf_pairwise keys bits ss 0, List.pairwise_singleton _ _,
        fun m hm n hn => ?_⟩
      obtain ⟨i, _, _, place, hplace, -⟩ := (mem_meetingsOf_iff keys bits ss).1 hm
      rw [List.mem_singleton.1 hn, hplace]
      trivial
    · exact List.pairwise_singleton _ _
  | .single _, .single _ _ => List.pairwise_singleton _ _
  | .single _, .multi _ _ => List.pairwise_singleton _ _
  | .multisig _ _, .single _ _ => List.pairwise_singleton _ _
theorem meetingsOf_pairwise : (keys : List PublicKey) → (bits : List Bool) →
    (ss : List SignatureData) → (n : Nat) →
      (meetingsOf n keys bits ss).Pairwise fun m n => m.place.Before n.place
  | key :: keys, true :: bits, s :: ss, n => by
    unfold meetingsOf
    refine List.pairwise_append.2 ⟨List.pairwise_map.2 ?_, meetingsOf_pairwise keys bits ss (n + 1),
      fun m hm m' hm' => ?_⟩
    · exact (meetings_pairwise key s).imp fun h => .inr ⟨rfl, h⟩
    · obtain ⟨m, -, rfl⟩ := List.mem_map.1 hm
      obtain ⟨i, _, _, place, hplace, -⟩ := (mem_meetingsOf_iff keys bits ss).1 hm'
      rw [hplace]
      exact .inl (by omega)
  | _ :: keys, false :: bits, ss, n => by
    unfold meetingsOf
    exact meetingsOf_pairwise keys bits ss (n + 1)
  | [], _, _, _ => .nil
  | _ :: _, [], _, _ => .nil
  | _ :: _, true :: _, [], _ => .nil
end

section Verify

variable {σ : Type} {check : SignatureTask → Call SignatureError σ PUnit}

mutual
/-- A signature with one part for every bit that is set is verified by deciding at all the meetings, one
after the other. -/
theorem verify_eq_meetings : (key : PublicKey) → (data : SignatureData) → data.Counted →
    key.verify check data = (meetings key data).forM (Meeting.run check)
  | .single key, .single mode signature, _ => by
    change check ⟨key, mode, signature⟩ = (do check ⟨key, mode, signature⟩; pure ())
    simp
  | .multisig threshold keys, .multi bits ss, hcounted => by
    let whole : Meeting := ⟨[], .multisig threshold keys, .multi bits ss⟩
    unfold PublicKey.verify meetings
    by_cases hbits : bits.length = keys.length
    · rw [if_neg (not_not.2 hbits), if_pos hbits, verifyMembers_eq_meetings keys bits ss hcounted.2
        hcounted.1 hbits 0]
      have happend : (meetingsOf 0 keys bits ss ++ [whole]).forM (Meeting.run check) = (do
          (meetingsOf 0 keys bits ss).forM (Meeting.run check)
          [whole].forM (Meeting.run check)) := List.forM_append
      rw [happend]
      dsimp only
      rw [bind_assoc]
      refine bind_congr fun _ => ?_
      change _ = (do Meeting.run check whole; pure ())
      rw [pure_bind, bind_pure]
      exact (if_neg (not_not.2 hbits)).symm
    · rw [if_pos hbits, if_neg hbits, List.nil_append]
      change _ = (do Meeting.run check whole; pure ())
      rw [bind_pure]
      exact (if_pos hbits).symm
  | .single _, .multi _ _, _ => rfl
  | .multisig _ _, .single _ _, _ => rfl
theorem verifyMembers_eq_meetings : (keys : List PublicKey) → (bits : List Bool) →
    (ss : List SignatureData) → CountedAll ss → ss.length = bits.count true →
    bits.length = keys.length → (n : Nat) → verifyMembers check keys bits ss = (do
      (meetingsOf n keys bits ss).forM (Meeting.run check)
      pure (bits.count true))
  | key :: keys, true :: bits, s :: ss, hcounted, hcount, hbits, n => by
    rw [List.count_cons_self] at hcount
    unfold verifyMembers meetingsOf
    rw [verify_eq_meetings key s hcounted.1, verifyMembers_eq_meetings keys bits ss hcounted.2
      (Nat.succ.inj hcount) (Nat.succ.inj hbits) (n + 1)]
    have happend : ((meetings key s).map (Meeting.below n) ++ meetingsOf (n + 1) keys bits ss).forM
        (Meeting.run check) = (do
          ((meetings key s).map (Meeting.below n)).forM (Meeting.run check)
          (meetingsOf (n + 1) keys bits ss).forM (Meeting.run check)) := List.forM_append
    have hbelow : ((meetings key s).map (Meeting.below n)).forM (Meeting.run check) =
        (meetings key s).forM (Meeting.run check) := List.forM_map
    rw [happend, hbelow, bind_assoc, bind_assoc]
    refine bind_congr fun _ => bind_congr fun _ => ?_
    rw [pure_bind, List.count_cons_self]
  | _ :: keys, false :: bits, ss, hcounted, hcount, hbits, n => by
    unfold verifyMembers meetingsOf
    rw [verifyMembers_eq_meetings keys bits ss hcounted (by simpa using hcount)
      (Nat.succ.inj hbits) (n + 1)]
    simp
  | [], [], _, _, _, _, _ => rfl
  | _ :: _, true :: _, [], _, hcount, _, _ => by simp at hcount
end

end Verify

end PublicKey

/-- Notes the mode, asks for the bytes to be signed in it, and checks the signature over them. -/
def SignatureTask.ask (bytes : SignMode → Except SignatureError Bytes) (task : SignatureTask) :
    Call SignatureError (List SignMode) PUnit := do
  modify (· ++ [task.mode])
  Call.ofExcept do
    let message ← bytes task.mode
    SingleKey.verify task.key message task.signature

namespace Meeting

variable {bytes : SignMode → Except SignatureError Bytes} {ms : List Meeting}

theorem task?_eq_some_iff {m : Meeting} {task : SignatureTask} : m.task? = some task ↔
    m.key = .single task.key ∧ m.data = .single task.mode task.signature := by
  obtain ⟨place, key, data⟩ := m
  cases key with
  | multisig => simp [task?]
  | single key =>
    cases data with
    | multi => simp [task?]
    | single mode signature => cases task; simp [task?]

/-- The checks among some meetings, with their places. -/
def tasks (ms : List Meeting) : List (Place × SignatureTask) :=
  ms.filterMap fun m => m.task?.map (m.place, ·)

theorem mem_tasks_iff {place : Place} {task : SignatureTask} : (place, task) ∈ tasks ms ↔
    (⟨place, .single task.key, .single task.mode task.signature⟩ : Meeting) ∈ ms := by
  unfold tasks
  rw [List.mem_filterMap]
  constructor
  · rintro ⟨m, hm, h⟩
    obtain ⟨task', htask, he⟩ := Option.map_eq_some_iff.1 h
    obtain ⟨rfl, rfl⟩ := Prod.mk.inj he
    obtain ⟨hkey, hdata⟩ := task?_eq_some_iff.1 htask
    rwa [← hkey, ← hdata]
  · intro hm
    exact ⟨_, hm, rfl⟩

theorem pairwise_tasks (h : ms.Pairwise fun m n => m.place.Before n.place) :
    (tasks ms).Pairwise fun u v => u.1.Before v.1 := by
  refine List.Pairwise.filterMap _ (fun m n hmn u hu v hv => ?_) h
  obtain ⟨_, -, rfl⟩ := Option.map_eq_some_iff.1 hu
  obtain ⟨_, -, rfl⟩ := Option.map_eq_some_iff.1 hv
  exact hmn

/-- The modes for which the bytes to be signed are asked at some meetings. -/
def modes (ms : List Meeting) : List SignMode := (tasks ms).map fun u => u.2.mode

theorem modes_append (ms ns : List Meeting) : modes (ms ++ ns) = modes ms ++ modes ns := by
  simp [modes, tasks]

/-- At every place it is decided what is decided there, and asked if a check is run. -/
theorem run_ask (bytes : SignMode → Except SignatureError Bytes) (m : Meeting) (log : List SignMode) :
    m.key.Passes bytes m.data ∧ m.run (SignatureTask.ask bytes) log = .ok () (log ++ modes [m]) ∨
    ¬m.key.Passes bytes m.data ∧
      ∃ e, m.run (SignatureTask.ask bytes) log = .error e (log ++ modes [m]) := by
  obtain ⟨place, key, data⟩ := m
  cases key with
  | single key =>
    cases data with
    | single mode signature =>
      let verdict := bytes mode >>= fun message => key.verify message signature
      have hpasses : PublicKey.Passes bytes (.single key) (.single mode signature) ↔
          verdict = .ok () := except_bind_eq_ok_iff.symm
      have hrun : run (SignatureTask.ask bytes) ⟨place, .single key, .single mode signature⟩ log =
          Call.ofExcept verdict (log ++ [mode]) := rfl
      rw [hpasses, hrun]
      cases verdict with
      | ok => exact .inl ⟨rfl, rfl⟩
      | error e => exact .inr ⟨nofun, e, rfl⟩
    | multi bits ss => exact .inr ⟨id, _, congrArg _ (List.append_nil log).symm⟩
  | multisig threshold keys =>
    cases data with
    | single mode signature => exact .inr ⟨id, _, congrArg _ (List.append_nil log).symm⟩
    | multi bits ss =>
      have hnone : log ++ modes [⟨place, .multisig threshold keys, .multi bits ss⟩] = log :=
        List.append_nil log
      rw [hnone]
      unfold run PublicKey.Passes
      dsimp only
      by_cases hbits : bits.length = keys.length
      · rw [if_neg (not_not.2 hbits)]
        by_cases hmet : threshold.toNat ≤ bits.count true
        · rw [if_neg (Nat.not_lt.2 hmet)]
          exact .inl ⟨⟨hbits, hmet⟩, rfl⟩
        · rw [if_pos (Nat.not_le.1 hmet)]
          exact .inr ⟨fun h => hmet h.2, _, rfl⟩
      · rw [if_pos hbits]
        exact .inr ⟨fun h => hbits h.1, _, rfl⟩

/-- Meetings are decided one after the other, up to the first that does not pass. -/
theorem forM_ask (bytes : SignMode → Except SignatureError Bytes) (ms : List Meeting)
    (log : List SignMode) :
    ((∀ m ∈ ms, m.key.Passes bytes m.data) ∧
      ms.forM (run (SignatureTask.ask bytes)) log = .ok () (log ++ modes ms)) ∨
    ∃ before m after, ms = before ++ m :: after ∧ (∀ m' ∈ before, m'.key.Passes bytes m'.data) ∧
      ¬m.key.Passes bytes m.data ∧
      ∃ e, ms.forM (run (SignatureTask.ask bytes)) log = .error e (log ++ modes (before ++ [m])) := by
  induction ms generalizing log with
  | nil => exact .inl ⟨nofun, congrArg _ (List.append_nil log).symm⟩
  | cons m ms ih =>
    rw [List.forM_eq_forM, List.forM_cons]
    rcases run_ask bytes m log with ⟨hpass, hrun⟩ | ⟨hfail, e, hrun⟩
    · rw [bind_of_ok hrun]
      rcases ih (log ++ modes [m]) with
        ⟨hall, hrest⟩ | ⟨before, m', after, rfl, hbefore, hfail, e, hrest⟩
      · left
        refine ⟨List.forall_mem_cons.2 ⟨hpass, hall⟩, ?_⟩
        rw [List.append_assoc, ← modes_append, List.singleton_append] at hrest
        exact hrest
      · right
        refine ⟨m :: before, m', after, rfl, List.forall_mem_cons.2 ⟨hpass, hbefore⟩, hfail, e, ?_⟩
        rw [List.append_assoc, ← modes_append, List.singleton_append] at hrest
        exact hrest
    · right
      refine ⟨[], m, ms, rfl, nofun, hfail, e, ?_⟩
      exact bind_eq_error_iff.2 (.inl hrun)

end Meeting

namespace PublicKey

variable {bytes : SignMode → Except SignatureError Bytes} {key : PublicKey} {data : SignatureData}

/-- The meeting is reached: all that come before it pass. -/
def Reaches (bytes : SignMode → Except SignatureError Bytes) (key : PublicKey) (data : SignatureData)
    (place : Place) : Prop :=
  ∀ place' key' data', place'.Before place → Meets key data place' key' data' →
    key'.Passes bytes data'

/-- A list that is in order ends with its first meeting that does not pass exactly if it holds those
that are reached. -/
theorem reaches_iff {before after : List Meeting} {m n : Meeting}
    (hms : meetings key data = before ++ m :: after)
    (hbefore : ∀ m' ∈ before, m'.key.Passes bytes m'.data) (hfail : ¬m.key.Passes bytes m.data) :
    n ∈ before ++ [m] ↔ Meets key data n.place n.key n.data ∧ key.Reaches bytes data n.place := by
  have horder := meetings_pairwise key data
  rw [hms, List.pairwise_append, List.pairwise_cons] at horder
  obtain ⟨-, ⟨hafter, -⟩, hcross⟩ := horder
  have hmem {place : Place} {key' : PublicKey} {data' : SignatureData} :
      Meets key data place key' data' ↔ (⟨place, key', data'⟩ : Meeting) ∈ before ++ m :: after := by
    rw [← hms, mem_meetings_iff]
  constructor
  · intro hn
    refine ⟨hmem.2 ?_, fun place' key' data' hlt hmeets => ?_⟩
    · rcases List.mem_append.1 hn with hn | hn
      · exact List.mem_append_left _ hn
      · exact List.mem_append_right _ (List.mem_cons.2 (.inl (List.mem_singleton.1 hn)))
    -- whatever comes before a meeting of the list is one of those that pass
    · have hle : ∀ m' ∈ m :: after, ¬m'.place.Before n.place := by
        intro m' hm' hlt
        rcases List.mem_append.1 hn with hn | hn
        · exact hlt.asymm (hcross n hn m' hm')
        · obtain rfl := List.mem_singleton.1 hn
          rcases List.mem_cons.1 hm' with rfl | hm'
          · exact hlt.asymm hlt
          · exact hlt.asymm (hafter m' hm')
      rcases List.mem_append.1 (hmem.1 hmeets) with hm' | hm'
      · exact hbefore _ hm'
      · exact absurd hlt (hle _ hm')
  · rintro ⟨hmeets, hreached⟩
    rcases List.mem_append.1 (hmem.1 hmeets) with hn | hn
    · exact List.mem_append_left _ hn
    · rcases List.mem_cons.1 hn with rfl | hn
      · exact List.mem_append_right _ (List.mem_singleton_self _)
      · refine absurd (hreached m.place m.key m.data (hafter _ hn) (hmem.2 ?_)) hfail
        exact List.mem_append_right _ List.mem_cons_self

/-- Verification decides at the meetings that are reached, and fails exactly if one of all meetings
does not pass. -/
theorem verify_ask (bytes : SignMode → Except SignatureError Bytes) (key : PublicKey)
    (hcounted : data.Counted) : ∃ visited : List Meeting,
    (visited.Pairwise fun m n => m.place.Before n.place) ∧
    (∀ m, m ∈ visited ↔ Meets key data m.place m.key m.data ∧ key.Reaches bytes data m.place) ∧
    (key.Satisfied bytes data ∧
        key.verify (SignatureTask.ask bytes) data [] = .ok () (Meeting.modes visited) ∨
      ¬key.Satisfied bytes data ∧
        ∃ e, key.verify (SignatureTask.ask bytes) data [] = .error e (Meeting.modes visited)) := by
  have horder := meetings_pairwise key data
  rw [verify_eq_meetings key data hcounted]
  rcases Meeting.forM_ask bytes (meetings key data) [] with
    ⟨hall, hrun⟩ | ⟨before, m, after, hms, hbefore, hfail, e, hrun⟩
  · have hpass {place : Place} {key' : PublicKey} {data' : SignatureData}
        (hmeets : Meets key data place key' data') : key'.Passes bytes data' :=
      hall ⟨place, key', data'⟩ ((mem_meetings_iff key data).2 hmeets)
    refine ⟨meetings key data, horder, fun m => ?_, .inl ⟨?_, hrun⟩⟩
    · rw [mem_meetings_iff]
      exact ⟨fun h => ⟨h, fun _ _ _ _ => hpass⟩, And.left⟩
    · exact satisfied_iff.2 fun _ _ _ => hpass
  · refine ⟨before ++ [m], ?_, fun n => reaches_iff hms hbefore hfail, .inr ⟨fun h => ?_, e, hrun⟩⟩
    · rw [hms, ← List.singleton_append, ← List.append_assoc] at horder
      exact (List.pairwise_append.1 horder).1
    · refine hfail (satisfied_iff.1 h _ _ _ ((mem_meetings_iff key data).1 ?_))
      rw [hms]
      exact List.mem_append_right _ List.mem_cons_self

/-- A signature that was read is verified exactly if it is what the key demands. On the way, the bytes to
be signed are asked once for every single signature that is reached at a single key, in the order of the
places, and for no other. -/
theorem verify_decides_policy (bytes : SignMode → Except SignatureError Bytes) (key : PublicKey)
    {info : ModeInfo} {raw : Bytes} {data : SignatureData}
    (h : SignatureData.decode info raw = .ok data) :
    ∃ asked : List (Place × SignatureTask),
      (key.verify (SignatureTask.ask bytes) data [] = .ok () (asked.map fun u => u.2.mode) ↔
        key.Satisfied bytes data) ∧
      ((∃ e, key.verify (SignatureTask.ask bytes) data [] = .error e (asked.map fun u => u.2.mode)) ↔
        ¬key.Satisfied bytes data) ∧
      (asked.Pairwise fun u v => u.1.Before v.1) ∧
      ∀ place task, (place, task) ∈ asked ↔
        Meets key data place (.single task.key) (.single task.mode task.signature) ∧
          key.Reaches bytes data place := by
  obtain ⟨visited, horder, hmem, hverify⟩ := verify_ask bytes key (counted_of_decode h)
  refine ⟨Meeting.tasks visited, ?_, ?_, Meeting.pairwise_tasks horder, fun place task => ?_⟩
  · rcases hverify with ⟨hsat, hrun⟩ | ⟨hsat, e, hrun⟩
    · exact ⟨fun _ => hsat, fun _ => hrun⟩
    · refine ⟨fun hok => ?_, fun h => absurd h hsat⟩
      rw [hrun] at hok
      cases hok
  · rcases hverify with ⟨hsat, hrun⟩ | ⟨hsat, e, hrun⟩
    · refine ⟨fun ⟨e, herror⟩ => ?_, fun h => absurd hsat h⟩
      rw [hrun] at herror
      cases herror
    · exact ⟨fun _ => hsat, fun _ => ⟨e, hrun⟩⟩
  · rw [Meeting.mem_tasks_iff, hmem]

end PublicKey

/-- Bytes to be signed in one mode only. -/
def directOnly : SignMode → Except SignatureError Bytes
  | .direct => .ok [1, 2, 3]
  | .aminoJson => .error (.signBytes "no document")

/-- The second member of a member of a threshold key. -/
def nestedUnitKey : PublicKey :=
  .multisig 1 [.multisig 1 [.single (.ed25519 (.replicate 32 1)), unitKey],
    .single (.ed25519 (.replicate 32 2))]

def nestedUnitSignature : SignatureData :=
  .multi [true, false] [.multi [false, true] [.single .direct (unitSignature [1, 2, 3])]]

-- in one evaluation, so that the signature is made only once
theorem nestedUnitSignature_evaluated :
    (match nestedUnitKey.verify (SignatureTask.ask directOnly) nestedUnitSignature [] with
      | .ok _ modes => decide (modes = [.direct])
      | .error _ _ => false) = true ∧ nestedUnitSignature.raw.length < 2 ^ 64 := by
  decide +kernel

theorem nestedUnitSignature_verified :
    nestedUnitKey.verify (SignatureTask.ask directOnly) nestedUnitSignature [] = .ok () [.direct] := by
  have hverified := nestedUnitSignature_evaluated.1
  cases hrun : nestedUnitKey.verify (SignatureTask.ask directOnly) nestedUnitSignature [] with
  | ok _ modes =>
    rw [hrun] at hverified
    rw [of_decide_eq_true hverified]
  | error e modes =>
    rw [hrun] at hverified
    cases hverified

theorem nestedUnitSignature_read :
    SignatureData.decode nestedUnitSignature.info nestedUnitSignature.raw = .ok nestedUnitSignature :=
  decode_raw nestedUnitSignature ⟨rfl, ⟨rfl, trivial, trivial⟩, trivial⟩
    nestedUnitSignature_evaluated.2

theorem nestedUnitSignature_satisfied :
    SignatureData.decode nestedUnitSignature.info nestedUnitSignature.raw = .ok nestedUnitSignature ∧
    nestedUnitKey.Satisfied directOnly nestedUnitSignature ∧
    ∃ (place : Place) (task : SignatureTask),
      PublicKey.Meets nestedUnitKey nestedUnitSignature place (.single task.key)
        (.single task.mode task.signature) ∧
      nestedUnitKey.Reaches directOnly nestedUnitSignature place ∧ task.mode = .direct := by
  obtain ⟨asked, hok, herror, -, hasked⟩ :=
    PublicKey.verify_decides_policy directOnly nestedUnitKey nestedUnitSignature_read
  have hrun := nestedUnitSignature_verified
  have hsat : nestedUnitKey.Satisfied directOnly nestedUnitSignature := by
    by_contra hsat
    obtain ⟨e, hfailed⟩ := herror.2 hsat
    rw [hrun] at hfailed
    cases hfailed
  have hmodes : asked.map (fun u => u.2.mode) = [.direct] := by
    rw [hok.2 hsat] at hrun
    injection hrun
  obtain ⟨⟨place, task⟩, hmem, hmode⟩ := List.mem_map.1 (hmodes ▸ List.mem_singleton_self _)
  obtain ⟨hmeets, hreached⟩ := (hasked place task).1 hmem
  exact ⟨nestedUnitSignature_read, hsat, place, task, hmeets, hreached, hmode⟩

end Tollgate
