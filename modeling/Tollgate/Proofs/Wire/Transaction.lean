import Tollgate.Proofs.Wire.Format
/-! The binary form of transactions is lawful: a transaction is read back whatever follows it, and the
bytes it is read from spell it, but for padding. -/
namespace Tollgate

open Format (Alternative Lawful Nesting lawful_word32 lawful_word64 lawful_bool lawful_bytes
  lawful_string lawful_fixedBytes lawful_alternatives list_write_congr length_write_lt_list number)

/-- Lengths that fit into the eight bytes they are written with. -/
def LengthsFit (ns : List Nat) : Prop := ∀ n ∈ ns, n < 2 ^ 64

namespace LengthsFit

instance (ns : List Nat) : Decidable (LengthsFit ns) :=
  inferInstanceAs (Decidable (∀ n ∈ ns, n < 2 ^ 64))

@[simp] theorem nil : LengthsFit [] := nofun

@[simp] theorem cons_iff {n : Nat} {ns : List Nat} :
    LengthsFit (n :: ns) ↔ n < 2 ^ 64 ∧ LengthsFit ns := List.forall_mem_cons

@[simp] theorem append_iff {ms ns : List Nat} :
    LengthsFit (ms ++ ns) ↔ LengthsFit ms ∧ LengthsFit ns := List.forall_mem_append

@[simp] theorem map_iff {α : Type} {f : α → Nat} {as : List α} :
    LengthsFit (as.map f) ↔ ∀ a ∈ as, f a < 2 ^ 64 := List.forall_mem_map

@[simp] theorem flatMap_iff {α : Type} {f : α → List Nat} {as : List α} :
    LengthsFit (as.flatMap f) ↔ ∀ a ∈ as, LengthsFit (f a) := by
  simp only [LengthsFit, List.mem_flatMap]
  exact ⟨fun h a ha n hn => h n ⟨a, ha, hn⟩, fun h n ⟨a, ha, hn⟩ => h a ha n hn⟩

end LengthsFit

namespace Amount

theorem length_utf8_text_lt (a : Amount) : (utf8 a.text).length < 2 ^ 64 := by
  rw [text, Text.length_utf8_decimal]
  have h : (Text.digits a.toNat).length ≤ 39 :=
    (Nat.length_toDigits_le_iff (by decide) (by decide)).2
      (Nat.lt_trans a.toNat_lt (by decide))
  omega

theorem lawful_format : format.Lawful fun _ => True where
  read_write {a} _ rest := by
    refine Call.except_bind_eq_ok_iff.2 ⟨_, lawful_string.read_write a.length_utf8_text_lt rest, ?_⟩
    simp only [ofText?_text]
    rfl
  of_read {bs a rest} hr := by
    obtain ⟨⟨s, tail⟩, hs, hr⟩ := Call.except_bind_eq_ok_iff.1 hr
    obtain ⟨b, hb, hr⟩ := Call.except_bind_eq_ok_iff.1 hr
    obtain ⟨rfl, rfl⟩ := Prod.mk.inj (Except.ok.inj hr)
    dsimp only at hb
    split at hb
    · next c hc =>
      obtain rfl := Except.ok.inj hb
      obtain ⟨sign, zeros, rfl⟩ := ofText?_eq_some_iff.1 hc
      exact ⟨trivial, _, (Format.string_of_read hs).2, .amount c sign zeros⟩
    · cases hb

end Amount

theorem Address.lawful_format : Address.format.Lawful fun _ => True := lawful_fixedBytes 20

namespace Coins

def lengths (s : Coins) : List Nat := s.size :: s.toList.map fun c => (utf8 c.denom).length

theorem lawful_format : format.Lawful fun s => LengthsFit s.lengths := by
  have hcoin : Coin.format.Lawful fun c => (utf8 c.denom).length < 2 ^ 64 ∧ True :=
    (lawful_string.pair Amount.lawful_format).convert (fun _ => rfl) fun _ _ => rfl
  refine (hcoin.list.convert (fun _ => rfl) fun _ _ => rfl).congr fun s => ?_
  simp [lengths, size]

end Coins

namespace Packet

def lengths (p : Packet) : List Nat :=
  [(utf8 p.sourcePort).length, (utf8 p.sourceChannel).length, (utf8 p.destinationPort).length,
    (utf8 p.destinationChannel).length, p.data.length]

theorem lawful_format : format.Lawful fun p => LengthsFit p.lengths := by
  refine ((lawful_word64.pair <| lawful_string.pair <| lawful_string.pair <| lawful_string.pair <|
    lawful_string.pair <| lawful_bytes.pair <| lawful_word64.pair lawful_word64).convert
    (fun _ => rfl) fun _ _ => rfl).congr fun p => ?_
  simp [lengths]

end Packet

namespace Message

/-- The lengths of the texts, byte strings and lists of a message. -/
def lengths : Message → List Nat
  | .send m => m.amount.lengths
  | .storeCode m => [m.code.length]
  | .instantiate m => (utf8 m.label).length :: m.body.length :: m.funds.lengths
  | .execute m => m.body.length :: m.funds.lengths
  | .receivePacket m => m.packet.lengths ++ [m.commitmentProof.length]
  | .acknowledgePacket m =>
    m.packet.lengths ++ [m.acknowledgement.length, m.acknowledgedProof.length]
  | .timeoutPacket m => m.packet.lengths ++ [m.unreceivedProof.length]
  | .timeoutOnClose m => m.packet.lengths ++ [m.unreceivedProof.length, m.closeProof.length]
  | .updateClient m => [(utf8 m.client).length, m.header.length]

theorem lawful_send : Send.format.Lawful fun m => LengthsFit (Message.send m).lengths := by
  refine ((Address.lawful_format.pair <| Address.lawful_format.pair Coins.lawful_format).convert
    (fun _ => rfl) fun _ _ => rfl).congr fun m => ?_
  simp [lengths]

theorem lawful_storeCode :
    StoreCode.format.Lawful fun m => LengthsFit (Message.storeCode m).lengths := by
  refine ((Address.lawful_format.pair lawful_bytes).convert (fun _ => rfl) fun _ _ => rfl).congr
    fun m => ?_
  simp [lengths]

theorem lawful_instantiate :
    Instantiate.format.Lawful fun m => LengthsFit (Message.instantiate m).lengths := by
  refine ((Address.lawful_format.pair <| Address.lawful_format.option.pair <| lawful_word64.pair <|
    lawful_string.pair <| lawful_bytes.pair Coins.lawful_format).convert
    (fun _ => rfl) fun _ _ => rfl).congr fun m => ?_
  simp [lengths]

theorem lawful_execute :
    Execute.format.Lawful fun m => LengthsFit (Message.execute m).lengths := by
  refine ((Address.lawful_format.pair <| Address.lawful_format.pair <|
    lawful_bytes.pair Coins.lawful_format).convert (fun _ => rfl) fun _ _ => rfl).congr fun m => ?_
  simp [lengths]

theorem lawful_receivePacket :
    ReceivePacket.format.Lawful fun m => LengthsFit (Message.receivePacket m).lengths := by
  refine ((Packet.lawful_format.pair <| lawful_bytes.pair <|
    lawful_word64.pair Address.lawful_format).convert
    (fun _ => rfl) fun _ _ => rfl).congr fun m => ?_
  simp [lengths]

theorem lawful_acknowledgePacket :
    AcknowledgePacket.format.Lawful fun m => LengthsFit (Message.acknowledgePacket m).lengths := by
  refine ((Packet.lawful_format.pair <| lawful_bytes.pair <| lawful_bytes.pair <|
    lawful_word64.pair Address.lawful_format).convert
    (fun _ => rfl) fun _ _ => rfl).congr fun m => ?_
  simp [lengths]

theorem lawful_timeoutPacket :
    TimeoutPacket.format.Lawful fun m => LengthsFit (Message.timeoutPacket m).lengths := by
  refine ((Packet.lawful_format.pair <| lawful_bytes.pair <| lawful_word64.pair <|
    lawful_word64.pair Address.lawful_format).convert
    (fun _ => rfl) fun _ _ => rfl).congr fun m => ?_
  simp [lengths]

theorem lawful_timeoutOnClose :
    TimeoutOnClose.format.Lawful fun m => LengthsFit (Message.timeoutOnClose m).lengths := by
  refine ((Packet.lawful_format.pair <| lawful_bytes.pair <| lawful_bytes.pair <|
    lawful_word64.pair <| lawful_word64.pair Address.lawful_format).convert
    (fun _ => rfl) fun _ _ => rfl).congr fun m => ?_
  simp [lengths]

theorem lawful_updateClient :
    UpdateClient.format.Lawful fun m => LengthsFit (Message.updateClient m).lengths := by
  refine ((lawful_string.pair <| lawful_bytes.pair Address.lawful_format).convert
    (fun _ => rfl) fun _ _ => rfl).congr fun m => ?_
  simp [lengths]

theorem lawful_format : format.Lawful fun m => LengthsFit m.lengths := by
  refine lawful_alternatives ?_ ?_ (fun m => ?_) (by decide)
  · simp only [List.forall_mem_cons]
    exact ⟨⟨fun _ => rfl, lawful_send⟩, ⟨fun _ => rfl, lawful_storeCode⟩,
      ⟨fun _ => rfl, lawful_instantiate⟩, ⟨fun _ => rfl, lawful_execute⟩,
      ⟨fun _ => rfl, lawful_receivePacket⟩, ⟨fun _ => rfl, lawful_acknowledgePacket⟩,
      ⟨fun _ => rfl, lawful_timeoutPacket⟩, ⟨fun _ => rfl, lawful_timeoutOnClose⟩,
      ⟨fun _ => rfl, lawful_updateClient⟩, nofun⟩
  · simp
  · cases m <;> simp

end Message

namespace PublicKey

/-- The keys that a threshold key lists. -/
def members : PublicKey → List PublicKey
  | .single _ => []
  | .multisig _ ks => ks

mutual
def lengths : PublicKey → List Nat
  | .single _ => []
  | .multisig _ ks => ks.length :: lengthsOf ks
def lengthsOf : List PublicKey → List Nat
  | [] => []
  | k :: ks => lengths k ++ lengthsOf ks
end

theorem lengthsOf_eq_flatMap (ks : List PublicKey) : lengthsOf ks = ks.flatMap lengths := by
  induction ks with
  | nil => rfl
  | cons k ks ih => rw [lengthsOf, ih, List.flatMap_cons]

theorem lengthsFit_iff (k : PublicKey) : LengthsFit k.lengths ↔
    k.members.length < 2 ^ 64 ∧ ∀ c ∈ k.members, LengthsFit c.lengths := by
  cases k <;> simp [lengths, members, lengthsOf_eq_flatMap]

theorem depth_le_depthOf {c : PublicKey} {ks : List PublicKey} (h : c ∈ ks) :
    c.depth ≤ depthOf ks := by
  induction ks with
  | nil => cases h
  | cons k ks ih =>
    rw [depthOf]
    rcases List.mem_cons.1 h with rfl | h
    · exact Nat.le_max_left _ _
    · exact Nat.le_trans (ih h) (Nat.le_max_right _ _)

theorem depth_lt_of_mem (k : PublicKey) : ∀ c ∈ k.members, c.depth < k.depth := by
  intro c hc
  cases k with
  | single => cases hc
  | multisig t ks =>
    have hle : c.depth ≤ depthOf ks := depth_le_depthOf hc
    rw [depth]
    omega

theorem lawful_pointFormat : pointFormat.Lawful fun _ => True := by
  refine (lawful_bytes.refine (fun b => ?_) fun {bs b} h => ?_).congr fun b => ?_
  · simp
  · split at h
    · next hb =>
      obtain rfl := Except.ok.inj h
      exact FixedBytes.toList_of_ofList? hb
    · cases h
  · simp

theorem nesting : Nesting nodeFormat members fun k => k.members.length < 2 ^ 64 where
  lawful {m P} hm := by
    refine lawful_alternatives ?_ ?_ (fun k => ?_) (by simp)
    · simp only [List.forall_mem_cons]
      refine ⟨⟨fun _ => rfl, ?_⟩, ⟨fun _ => rfl, ?_⟩, ⟨fun _ => rfl, ?_⟩, nofun⟩
      · exact lawful_pointFormat.congr fun k => by simp [members]
      · exact (lawful_fixedBytes 32).congr fun k => by simp [members]
      · exact (lawful_word32.pair hm.list).congr fun p => by simp [members]
    · simp
    · rcases k with (_ | _) | ⟨t, ks⟩ <;> simp
  congr {m n k} h := by
    cases k with
    | single k => cases k <;> rfl
    | multisig t ks =>
      change (number 4).write 2 ++ (Format.word32.write t ++ m.list.write ks) =
        (number 4).write 2 ++ (Format.word32.write t ++ n.list.write ks)
      rw [list_write_congr ks h]
  length_lt {m k c} hc := by
    cases k with
    | single => cases hc
    | multisig t ks =>
      change _ < ((number 4).write 2 ++ (Format.word32.write t ++ m.list.write ks)).length
      have hlt : _ < (m.list.write ks).length := length_write_lt_list hc
      rw [List.length_append, List.length_append]
      omega

theorem lawful_format : format.Lawful fun k => LengthsFit k.lengths :=
  nesting.lawful_format lengthsFit_iff (by simp [formatWithin]) (fun _ => rfl) depth_lt_of_mem

end PublicKey

theorem ExtensionOption.lawful_format :
    format.Lawful fun o => LengthsFit [(utf8 o.typeUrl).length, o.value.length] := by
  refine ((lawful_string.pair lawful_bytes).convert (fun _ => rfl) fun _ _ => rfl).congr fun o => ?_
  simp

namespace TxBody

def optionLengths (options : List ExtensionOption) : List Nat :=
  options.length :: options.flatMap fun o => [(utf8 o.typeUrl).length, o.value.length]

def lengths (b : TxBody) : List Nat :=
  b.messages.length :: b.messages.flatMap Message.lengths ++ (utf8 b.memo).length ::
    optionLengths b.extensionOptions ++ optionLengths b.nonCriticalOptions

theorem lawful_format : format.Lawful fun b => LengthsFit b.lengths := by
  have hoptions := ExtensionOption.lawful_format.list
  refine ((Message.lawful_format.list.pair <| lawful_string.pair <| lawful_word64.pair <|
    hoptions.pair hoptions).convert (fun _ => rfl) fun _ _ => rfl).congr fun b => ?_
  simp [lengths, optionLengths, and_assoc]

end TxBody

theorem Fee.lawful_format : format.Lawful fun f => LengthsFit f.amount.lengths := by
  refine ((Coins.lawful_format.pair <| lawful_word64.pair <|
    Address.lawful_format.option.pair Address.lawful_format.option).convert
    (fun _ => rfl) fun _ _ => rfl).congr fun f => ?_
  simp

theorem SignMode.lawful_format : format.Lawful fun _ => True := by
  refine lawful_alternatives ?_ ?_ (fun m => ?_) (by decide)
  · simp only [List.forall_mem_cons]
    exact ⟨Alternative.lawful_unit trivial, Alternative.lawful_unit trivial, nofun⟩
  · simp [Alternative.unit]
  · cases m <;> simp [Alternative.unit]

namespace ModeInfo

/-- The mode information that a threshold signature lists. -/
def members : ModeInfo → List ModeInfo
  | .single _ => []
  | .multi _ infos => infos

/-- The bits of a threshold signature. -/
def bits : ModeInfo → List Bool
  | .single _ => []
  | .multi bits _ => bits

mutual
def lengths : ModeInfo → List Nat
  | .single _ => []
  | .multi bits infos => bits.length :: infos.length :: lengthsOf infos
def lengthsOf : List ModeInfo → List Nat
  | [] => []
  | m :: ms => lengths m ++ lengthsOf ms
end

theorem lengthsOf_eq_flatMap (ms : List ModeInfo) : lengthsOf ms = ms.flatMap lengths := by
  induction ms with
  | nil => rfl
  | cons m ms ih => rw [lengthsOf, ih, List.flatMap_cons]

theorem lengthsFit_iff (m : ModeInfo) : LengthsFit m.lengths ↔
    (m.bits.length < 2 ^ 64 ∧ m.members.length < 2 ^ 64) ∧
      ∀ c ∈ m.members, LengthsFit c.lengths := by
  cases m <;> simp [lengths, bits, members, lengthsOf_eq_flatMap, and_assoc]

theorem depth_le_depthOf {c : ModeInfo} {ms : List ModeInfo} (h : c ∈ ms) :
    c.depth ≤ depthOf ms := by
  induction ms with
  | nil => cases h
  | cons m ms ih =>
    rw [depthOf]
    rcases List.mem_cons.1 h with rfl | h
    · exact Nat.le_max_left _ _
    · exact Nat.le_trans (ih h) (Nat.le_max_right _ _)

theorem depth_lt_of_mem (m : ModeInfo) : ∀ c ∈ m.members, c.depth < m.depth := by
  intro c hc
  cases m with
  | single => cases hc
  | multi bits infos =>
    have hle : c.depth ≤ depthOf infos := depth_le_depthOf hc
    rw [depth]
    omega

theorem nesting : Nesting nodeFormat members fun m =>
    m.bits.length < 2 ^ 64 ∧ m.members.length < 2 ^ 64 where
  lawful {m P} hm := by
    refine lawful_alternatives ?_ ?_ (fun m => ?_) (by simp)
    · simp only [List.forall_mem_cons]
      refine ⟨⟨fun _ => rfl, ?_⟩, ⟨fun _ => rfl, ?_⟩, nofun⟩
      · exact SignMode.lawful_format.congr fun m => by simp [bits, members]
      · exact (lawful_bool.list.pair hm.list).congr fun p => by simp [bits, members, and_assoc]
    · simp
    · cases m <;> simp
  congr {m n a} h := by
    cases a with
    | single mode => rfl
    | multi bits infos =>
      change (number 4).write 1 ++ (Format.bool.list.write bits ++ m.list.write infos) =
        (number 4).write 1 ++ (Format.bool.list.write bits ++ n.list.write infos)
      rw [list_write_congr infos h]
  length_lt {m a c} hc := by
    cases a with
    | single => cases hc
    | multi bits infos =>
      change _ < ((number 4).write 1 ++ (Format.bool.list.write bits ++ m.list.write infos)).length
      have hlt : _ < (m.list.write infos).length := length_write_lt_list hc
      rw [List.length_append, List.length_append]
      omega

theorem lawful_format : format.Lawful fun m => LengthsFit m.lengths :=
  nesting.lawful_format lengthsFit_iff (by simp [formatWithin]) (fun _ => rfl) depth_lt_of_mem

end ModeInfo

namespace SignerInfo

def lengths (s : SignerInfo) : List Nat :=
  s.publicKey.toList.flatMap PublicKey.lengths ++ s.modeInfo.lengths

theorem lawful_format : format.Lawful fun s => LengthsFit s.lengths := by
  refine ((PublicKey.lawful_format.option.pair <| ModeInfo.lawful_format.pair lawful_word64).convert
    (fun _ => rfl) fun _ _ => rfl).congr fun s => ?_
  simp [lengths]

end SignerInfo

namespace AuthInfo

def lengths (a : AuthInfo) : List Nat :=
  a.signerInfos.length :: a.signerInfos.flatMap SignerInfo.lengths ++ a.fee.amount.lengths

theorem lawful_format : format.Lawful fun a => LengthsFit a.lengths := by
  refine ((SignerInfo.lawful_format.list.pair Fee.lawful_format).convert
    (fun _ => rfl) fun _ _ => rfl).congr fun a => ?_
  simp [lengths, and_assoc]

end AuthInfo

namespace Transaction

/-- The lengths of all texts, byte strings and lists of a transaction, except for the texts of its
amounts, which are short. -/
def lengths (tx : Transaction) : List Nat :=
  tx.body.lengths ++ tx.authInfo.lengths ++ tx.signatures.length :: tx.signatures.map List.length

theorem lawful_format : format.Lawful fun tx => LengthsFit tx.lengths := by
  refine ((TxBody.lawful_format.pair <| AuthInfo.lawful_format.pair lawful_bytes.list).convert
    (fun _ => rfl) fun _ _ => rfl).congr fun tx => ?_
  simp [lengths]

/-- A transaction is decoded from its bytes whatever follows them, and no other has the same. -/
theorem decode?_encode_append {tx : Transaction} (h : LengthsFit tx.lengths) :
    (∀ rest, decode? (tx.encode ++ rest) = .ok tx) ∧
      ∀ tx' : Transaction, LengthsFit tx'.lengths → tx'.encode = tx.encode → tx' = tx := by
  refine ⟨lawful_format.decode_write h, fun tx' h' he => ?_⟩
  have happend : format.write tx' ++ [] = format.write tx ++ [] := congrArg (· ++ []) he
  exact (lawful_format.write_append_inj h' h happend).1

/-- A transaction with nested keys and modes, coins out of order and an option. -/
def ofCommittee : Transaction where
  body := ⟨[.send ⟨.zero, .replicate 20 9, ⟨[⟨"stake", .clamp 5⟩, ⟨"atom", .zero⟩]⟩⟩], "\u2713", 0,
    [⟨"/option", [1, 2]⟩], []⟩
  authInfo :=
    ⟨[⟨some (.multisig 2 [.multisig 1 [.single (.ed25519 (.replicate 32 1))],
          .single (.secp256k1 (.replicate 33 2))]),
        .multi [true, true] [.multi [true] [.single .direct], .single .aminoJson], 7⟩],
      ⟨.empty, 100000, none, some .zero⟩⟩
  signatures := [[], [1]]

theorem ofCommittee_decoded : LengthsFit ofCommittee.lengths ∧
    (∀ rest, decode? (ofCommittee.encode ++ rest) = .ok ofCommittee) ∧
    ∀ tx' : Transaction, LengthsFit tx'.lengths → tx'.encode = ofCommittee.encode →
      tx' = ofCommittee := by
  have h : LengthsFit ofCommittee.lengths := by decide +kernel
  exact ⟨h, decode?_encode_append h⟩

end Transaction
end Tollgate
