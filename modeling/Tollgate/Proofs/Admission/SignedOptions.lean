import Tollgate.Proofs.Admission.Charge
import Tollgate.Proofs.Signature.Document
import Tollgate.Proofs.Signature.Singles
/-! Whether a signature covers the extension options. The binary document holds them, the JSON document
does not: who signs the JSON document alone has signed for any options. -/
namespace Tollgate

open Call

namespace Transaction

end Transaction

variable {tx : Transaction} {critical nonCritical : List ExtensionOption}
  {check : SingleKey → Bytes → Bytes → Except SignatureError Unit}

namespace SignerData

variable {signer : SignerData}

end SignerData

namespace Transaction

variable {i : Nat} {info : SignerInfo} {raw : Bytes} {signature : SignatureData} {data : SignerData}

/-- Every single signature that stands for a signer has passed the check of a key of the signer. -/
theorem SignedAt.checked (h : tx.SignedAt check i data) (hinfo : tx.signerInfo? i = some info)
    (hraw : tx.signatures[i]? = some raw)
    (hdecode : SignatureData.decode info.modeInfo raw = .ok signature) :
    ∀ p ∈ signature.singles, ∃ key ∈ data.key.leaves,
      check key (data.signBytes tx p.1) p.2 = .ok () := by
  obtain ⟨info', raw', signature', hinfo', hraw', -, hdecode', hverify⟩ := h
  obtain rfl := Option.some.inj (hinfo.symm.trans hinfo')
  obtain rfl := Option.some.inj (hraw.symm.trans hraw')
  obtain rfl := Except.ok.inj (hdecode.symm.trans hdecode')
  exact PublicKey.checked _ signature _ _ _ hdecode hverify

end Transaction

namespace Handler

variable {τ : Type}

end Handler

end Tollgate
