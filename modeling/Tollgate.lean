import Tollgate.Account
import Tollgate.Account.Json
import Tollgate.Address
import Tollgate.Admission.Context
import Tollgate.Admission.Error
import Tollgate.Admission.Fee
import Tollgate.Admission.Form
import Tollgate.Admission.Handler
import Tollgate.Admission.InMemory
import Tollgate.Admission.Intake
import Tollgate.Admission.Options
import Tollgate.Admission.Payment
import Tollgate.Admission.Relay
import Tollgate.Admission.Run
import Tollgate.Admission.Settings
import Tollgate.Admission.Signers
import Tollgate.Admission.Size
import Tollgate.Admission.Stage
import Tollgate.Amount
import Tollgate.Bytes
import Tollgate.Coin.Basic
import Tollgate.Coin.Decimal
import Tollgate.Coin.Error
import Tollgate.Coin.Json
import Tollgate.Curve.Ed25519
import Tollgate.Curve.Modular
import Tollgate.Curve.Secp256k1
import Tollgate.Gas
import Tollgate.Hash.Sha256
import Tollgate.Hash.Sha512
import Tollgate.Json.Fault
import Tollgate.Json.Print
import Tollgate.Json.Reader
import Tollgate.Json.Shape
import Tollgate.Json.Value
import Tollgate.Key
import Tollgate.Ledger.Accounts
import Tollgate.Ledger.Allowances
import Tollgate.Ledger.Bank
import Tollgate.Ledger.Counter
import Tollgate.Ledger.Error
import Tollgate.Ledger.Memory
import Tollgate.Ledger.Outage
import Tollgate.Ledger.Relays
import Tollgate.Ledger.Service
import Tollgate.Ledger.Table
import Tollgate.Message.Basic
import Tollgate.Message.Check
import Tollgate.Proofs.Admission.AroundBank
import Tollgate.Proofs.Admission.AroundBook
import Tollgate.Proofs.Admission.Authentication
import Tollgate.Proofs.Admission.Bookkeeping
import Tollgate.Proofs.Admission.Change
import Tollgate.Proofs.Admission.Charge
import Tollgate.Proofs.Admission.Failure
import Tollgate.Proofs.Admission.Intake
import Tollgate.Proofs.Admission.Keys
import Tollgate.Proofs.Admission.Lookup
import Tollgate.Proofs.Admission.Modes
import Tollgate.Proofs.Admission.Passage
import Tollgate.Proofs.Admission.Payment
import Tollgate.Proofs.Admission.Relay
import Tollgate.Proofs.Admission.Replay
import Tollgate.Proofs.Admission.Signatures
import Tollgate.Proofs.Admission.Simulation
import Tollgate.Proofs.Admission.Supply
import Tollgate.Proofs.Admission.Tuning
import Tollgate.Proofs.Coin.Canonical
import Tollgate.Proofs.Key.Canonical
import Tollgate.Proofs.Ledger.Allowance
import Tollgate.Proofs.Ledger.Balance
import Tollgate.Proofs.Ledger.Book
import Tollgate.Proofs.Ledger.Counter
import Tollgate.Proofs.Ledger.Outcome
import Tollgate.Proofs.Ledger.Signing
import Tollgate.Proofs.Ledger.Supply
import Tollgate.Proofs.Ledger.Transfer
import Tollgate.Proofs.Signature.Gas
import Tollgate.Proofs.Signature.Verify
import Tollgate.Signature.Basic
import Tollgate.Signature.Document
import Tollgate.Signature.Gas
import Tollgate.Text.Digits
import Tollgate.Text.Hidden
import Tollgate.Text.Quoted
import Tollgate.Text.Space
import Tollgate.Transaction.Basic
import Tollgate.Transaction.Json
import Tollgate.Wire.Format
import Tollgate.Wire.Transaction
import Tollgate.Word
import Tollgate.Proofs.Admission.Imprint
import Tollgate.Proofs.Admission.DryRun
import Tollgate.Proofs.Admission.Effect
import Tollgate.Proofs.Wire.Format
import Tollgate.Proofs.Wire.Transaction
import Tollgate.Proofs.Admission.Size
import Tollgate.Proofs.Json.ReadBack
import Tollgate.Proofs.Json.Faithful
import Tollgate.Proofs.Transaction.Json
import Tollgate.Proofs.Signature.Document
import Tollgate.Proofs.Admission.SignedOptions
import Tollgate.Proofs.Admission.Overflow
import Tollgate.Proofs.Admission.Residue
import Tollgate.Proofs.Admission.Arrival
import Tollgate.Proofs.Admission.Grants
import Tollgate.Proofs.Admission.Atomicity
import Tollgate.Proofs.Admission.Consumption
import Tollgate.Proofs.Admission.Lockstep
import Tollgate.Proofs.Signature.Selection
import Tollgate.Proofs.Ledger.Watch
import Tollgate.Proofs.Admission.Prepaid
import Tollgate.Proofs.Ledger.Alike
import Tollgate.Proofs.Admission.Independence
import Tollgate.Proofs.Admission.KeyRegister
import Tollgate.Proofs.Signature.Vacuous
import Tollgate.Proofs.Admission.Endorsement
import Tollgate.Proofs.Admission.LateFailure
import Tollgate.Proofs.Wire.Length
import Tollgate.Proofs.Admission.Completion
import Tollgate.Proofs.Admission.Estimate
import Tollgate.Proofs.Signature.Encoding
import Tollgate.Proofs.Admission.Rewriting
import Tollgate.Proofs.Signature.Policy
import Tollgate.Proofs.Coin.Sorting
import Tollgate.Proofs.Admission.FeeFloor
import Tollgate.Proofs.Ledger.Memory
import Tollgate.Proofs.Ledger.Shortfall
import Tollgate.Proofs.Admission.Redundancy
import Tollgate.Proofs.Admission.Counting
import Tollgate.Proofs.Admission.BlockIndex
import Tollgate.Proofs.Coin.Decimal
import Tollgate.Proofs.Coin.Denom
import Tollgate.Proofs.Json.Restored
import Tollgate.Proofs.Transaction.RoundTrip
import Tollgate.Proofs.Ledger.Numbering
import Tollgate.Proofs.Admission.AccountNumbers
