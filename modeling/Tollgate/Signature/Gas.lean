import Tollgate.Account
import Tollgate.Gas
import Tollgate.Signature.Basic
/-! Gas for the signatures of one signer. -/
namespace Tollgate.PublicKey

def gasDescriptor (key : SingleKey) : String := "ante verify: " ++ key.typeName

mutual
/-- Charges for every single key that signed. A threshold key without a threshold signature is
charged for all its single keys. -/
def consumeGas (params : AuthParams) :
    PublicKey → SignatureData → EStateM GasError GasMeter Unit
  | .single key, _ => GasMeter.consume (params.cost key) (gasDescriptor key)
  | .multisig _ keys, .multi bits signatures => consumeGasSigned params keys bits signatures
  | .multisig _ keys, .single mode signature => consumeGasAll params keys (.single mode signature)
def consumeGasSigned (params : AuthParams) :
    List PublicKey → List Bool → List SignatureData → EStateM GasError GasMeter Unit
  | key :: keys, true :: bits, signature :: signatures => do
    consumeGas params key signature
    consumeGasSigned params keys bits signatures
  | _ :: keys, false :: bits, signatures => consumeGasSigned params keys bits signatures
  | _, _, _ => pure ()
def consumeGasAll (params : AuthParams) :
    List PublicKey → SignatureData → EStateM GasError GasMeter Unit
  | key :: keys, signature => do
    consumeGas params key signature
    consumeGasAll params keys signature
  | [], _ => pure ()
end

end Tollgate.PublicKey
