import Tollgate.Coin.Decimal
import Tollgate.Gas
import Tollgate.Key
import Tollgate.Message.Basic
/-! The context of an admission: what the caller states about the block, and what the stages of one
run leave for each other. -/
namespace Tollgate

/-- How a transaction is looked at. -/
inductive ExecMode where
  /-- Before it enters the pool. -/
  | check
  /-- Again in the pool, after a block. -/
  | recheck
  /-- In a block. -/
  | deliver
  deriving DecidableEq, Repr

namespace ExecMode

/-- The name in documents. -/
def tag : ExecMode → String
  | .check => "Check"
  | .recheck => "ReCheck"
  | .deliver => "Deliver"

def ofTag? (t : String) : Option ExecMode := [check, recheck, deliver].find? fun m => m.tag = t

end ExecMode

/-- A signer as it was found when its key was looked up. -/
structure Signer where
  address : Address
  accountNumber : UInt64
  sequence : UInt64
  key : PublicKey
  /-- The key stands in for an unknown one in a simulation. -/
  simulated : Bool
  deriving DecidableEq

structure Context where
  chainId : String
  height : UInt64
  /-- In seconds. -/
  time : UInt64
  mode : ExecMode
  /-- The prices a node asks for in its pool. -/
  minGasPrices : List GasPrice
  /-- The transaction as it was received; none if only its parts are known. -/
  txBytes : Bytes
  maxBlockGas : Option UInt64
  simulate : Bool
  meter : GasMeter
  priority : Int64
  /-- The position of the transaction in its block. -/
  txIndex : Option UInt32
  signers : List Signer
  /-- The packets of a transaction in which every packet was already applied. -/
  redundantPackets : Option (List PacketId)
  deriving DecidableEq

namespace Context

def new (chainId : String) (height time : UInt64) : Context where
  chainId := chainId
  height := height
  time := time
  mode := .deliver
  minGasPrices := []
  txBytes := []
  maxBlockGas := none
  simulate := false
  meter := .infinite
  priority := 0
  txIndex := none
  signers := []
  redundantPackets := none

/-- In the pool, for the first time or again. -/
def isCheck (c : Context) : Bool := c.mode = .check || c.mode = .recheck

def isRecheck (c : Context) : Bool := c.mode = .recheck

def isGenesis (c : Context) : Bool := c.height = 0

def signer? (c : Context) (a : Address) : Option Signer := c.signers.find? fun s => s.address = a

/-- Forgets what an earlier run left. -/
def reset (c : Context) (simulate : Bool) (meter : GasMeter) : Context :=
  { c with
    simulate := simulate
    meter := meter
    priority := 0
    txIndex := none
    signers := []
    redundantPackets := none }

end Context
end Tollgate
