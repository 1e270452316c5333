import TrustFlow.Lib.Invocation
import TrustFlow.Lib.Machine
import TrustFlow.Lib.Storage

/-!
# The abundance token

A token anyone can mint to themselves.  Balances are persistent entries, and
debit and credit are two separate read-modify-writes.  An allowance is a
temporary entry that names the ledger it expires at: the contract reads it as
zero past that ledger, and the host drops the entry once its lifetime is over.
-/

namespace Abundance

/-! ### Keys, values and events -/

def DAY_IN_LEDGERS : Nat := 17280
def INSTANCE_BUMP_AMOUNT : Nat := 7 * DAY_IN_LEDGERS
def INSTANCE_LIFETIME_THRESHOLD : Nat := INSTANCE_BUMP_AMOUNT - DAY_IN_LEDGERS
def BALANCE_BUMP_AMOUNT : Nat := 30 * DAY_IN_LEDGERS
def BALANCE_LIFETIME_THRESHOLD : Nat := BALANCE_BUMP_AMOUNT - DAY_IN_LEDGERS

/-- `AllowanceDataKey { from, spender }` -/
structure AllowanceDataKey (A : Type) where
  src : A
  spender : A
deriving DecidableEq

structure AllowanceValue where
  amount : I128
  expirationLedger : U32
deriving DecidableEq

inductive DataKey (A : Type) where
  | allowance (k : AllowanceDataKey A)
  | balance (a : A)
  | admin
deriving DecidableEq

/-- The type of the value stored under a key. -/
abbrev DataKey.Val (A : Type) : DataKey A → Type
  | .allowance _ => AllowanceValue
  | .balance _ => I128
  | .admin => A

structure TokenMetadata where
  decimal : U32
  name : String
  symbol : String
deriving DecidableEq

inductive Event (A : Type) where
  | mint (admin dest : A) (amount : I128)
  | setAdmin (admin newAdmin : A)
  | approve (src spender : A) (amount : I128) (expirationLedger : U32)
  | transfer (src dest : A) (amount : I128)
  | burn (src : A) (amount : I128)
deriving DecidableEq

/-- Why a call fails: a missing authorisation, a panic of the contract, the
    unwrapping of nothing, or an arithmetic overflow. -/
inductive Fault where
  | notAuthorized
  | panicked (message : String)
  | unwrapNone
  | overflow
deriving DecidableEq

/-! ### The environment -/

/-- The lifetimes a host gives to new entries. -/
structure Host where
  persistentTtl : Nat
  temporaryTtl : Nat

variable {A : Type} [DecidableEq A] {H : Host}

structure Env (A : Type) (H : Host) where
  sequence : U32
  instanceStore : FiniteMap (DataKey A) (DataKey.Val A)
  metadata : Option TokenMetadata
  instanceLiveUntil : Nat
  persistent : Persistent (DataKey A) (DataKey.Val A)
  temporary : Temporary (DataKey A) (DataKey.Val A)
  /-- Events published by this contract's calls, newest first. -/
  events : List (Event A)

namespace Env

def now (env : Env A H) : Nat := env.sequence.val.toNat

/-- `e.storage().instance().get(key)` -/
def inst (env : Env A H) (k : DataKey A) : Option (DataKey.Val A k) := env.instanceStore.find? k

/-- `e.storage().persistent().get(key)` -/
def get (env : Env A H) (k : DataKey A) : Option (DataKey.Val A k) := env.persistent.get k

/-- `e.storage().temporary().get(key)` -/
def temp (env : Env A H) (k : DataKey A) : Option (DataKey.Val A k) := env.temporary.get env.now k

def setInstance (env : Env A H) (k : DataKey A) (v : DataKey.Val A k) : Env A H :=
  { env with instanceStore := env.instanceStore.insert k v }

def setMetadata (env : Env A H) (metadata : TokenMetadata) : Env A H :=
  { env with metadata := some metadata }

def bumpInstance (env : Env A H) : Env A H :=
  { env with
    instanceLiveUntil := extended env.now INSTANCE_LIFETIME_THRESHOLD INSTANCE_BUMP_AMOUNT
      env.instanceLiveUntil }

def setPersistent (env : Env A H) (k : DataKey A) (v : DataKey.Val A k) : Env A H :=
  { env with persistent := env.persistent.set (env.now + H.persistentTtl) k v }

def bumpPersistent (env : Env A H) (threshold amount : Nat) (k : DataKey A) : Env A H :=
  { env with persistent := env.persistent.bump env.now threshold amount k }

def setTemporary (env : Env A H) (k : DataKey A) (v : DataKey.Val A k) : Env A H :=
  { env with temporary := env.temporary.set env.now (env.now + H.temporaryTtl) k v }

def bumpTemporary (env : Env A H) (threshold amount : Nat) (k : DataKey A) : Env A H :=
  { env with temporary := env.temporary.bump env.now threshold amount k }

def publish (env : Env A H) (e : Event A) : Env A H := { env with events := e :: env.events }

end Env

/-! ### The host functions -/

/-- An entrypoint or a part of one.  The context tells which addresses
    authorised the invocation. -/
abbrev Op (A : Type) (H : Host) := Invocation (A → Bool) (Env A H) Fault

open Invocation

/-- `address.require_auth()` -/
def requireAuth (a : A) : Op A H Unit := fun auth env =>
  if auth a then .ok ((), env) else .error .notAuthorized

def ledgerSequence : Op A H U32 := reads Env.sequence
def instanceGet (k : DataKey A) : Op A H (Option (DataKey.Val A k)) := reads fun env => env.inst k
def instanceSet (k : DataKey A) (v : DataKey.Val A k) : Op A H Unit :=
  modify fun env => env.setInstance k v
def instanceBump : Op A H Unit := modify Env.bumpInstance
def persistentGet (k : DataKey A) : Op A H (Option (DataKey.Val A k)) := reads fun env => env.get k
def persistentSet (k : DataKey A) (v : DataKey.Val A k) : Op A H Unit :=
  modify fun env => env.setPersistent k v
def persistentBump (k : DataKey A) (threshold amount : Nat) : Op A H Unit :=
  modify fun env => env.bumpPersistent threshold amount k
def temporaryGet (k : DataKey A) : Op A H (Option (DataKey.Val A k)) := reads fun env => env.temp k
def temporarySet (k : DataKey A) (v : DataKey.Val A k) : Op A H Unit :=
  modify fun env => env.setTemporary k v
def temporaryBump (k : DataKey A) (threshold amount : U32) : Op A H Unit :=
  modify fun env => env.bumpTemporary threshold.val.toNat amount.val.toNat k
def publish (e : Event A) : Op A H Unit := modify fun env => env.publish e

/-! ### Administrator and metadata -/

def hasAdministrator : Op A H Bool := do return (← instanceGet .admin).isSome
def readAdministrator : Op A H A := do okOr (← instanceGet .admin) .unwrapNone
def writeAdministrator (id : A) : Op A H Unit := instanceSet .admin id

def getMetadata : Op A H TokenMetadata := do okOr (← reads Env.metadata) .unwrapNone
def readDecimal : Op A H U32 := do return (← getMetadata).decimal
def readName : Op A H String := do return (← getMetadata).name
def readSymbol : Op A H String := do return (← getMetadata).symbol
def writeMetadata (metadata : TokenMetadata) : Op A H Unit :=
  modify fun env => env.setMetadata metadata

/-! ### Balances -/

def readBalance (addr : A) : Op A H I128 := do
  match ← persistentGet (.balance addr) with
  | some balance =>
      persistentBump (.balance addr) BALANCE_LIFETIME_THRESHOLD BALANCE_BUMP_AMOUNT
      return balance
  | none => return 0

def writeBalance (addr : A) (amount : I128) : Op A H Unit := do
  persistentSet (.balance addr) amount
  persistentBump (.balance addr) BALANCE_LIFETIME_THRESHOLD BALANCE_BUMP_AMOUNT

def receiveBalance (addr : A) (amount : I128) : Op A H Unit := do
  let balance ← readBalance addr
  writeBalance addr (← okOr (balance.checkedAdd amount) .overflow)

def spendBalance (addr : A) (amount : I128) : Op A H Unit := do
  let balance ← readBalance addr
  failIf (balance.val < amount.val) (.panicked "insufficient balance")
  writeBalance addr (← okOr (balance.checkedSub amount) .overflow)

/-! ### Allowances -/

def readAllowance (src spender : A) : Op A H AllowanceValue := do
  match ← temporaryGet (.allowance ⟨src, spender⟩) with
  | some allowance =>
      let sequence ← ledgerSequence
      if allowance.expirationLedger.val < sequence.val then
        return { amount := 0, expirationLedger := allowance.expirationLedger }
      else return allowance
  | none => return { amount := 0, expirationLedger := 0 }

def writeAllowance (src spender : A) (amount : I128) (expirationLedger : U32) : Op A H Unit := do
  let sequence ← ledgerSequence
  failIf (amount.val > 0 ∧ expirationLedger.val < sequence.val)
    (.panicked "expiration_ledger is less than ledger seq when amount > 0")
  temporarySet (.allowance ⟨src, spender⟩) { amount, expirationLedger }
  if amount.val > 0 then
    let liveFor ← okOr (expirationLedger.checkedSub sequence) .unwrapNone
    temporaryBump (.allowance ⟨src, spender⟩) liveFor liveFor
  else return ()

def spendAllowance (src spender : A) (amount : I128) : Op A H Unit := do
  let allowance ← readAllowance src spender
  failIf (allowance.amount.val < amount.val) (.panicked "insufficient allowance")
  let rest ← okOr (allowance.amount.checkedSub amount) .overflow
  writeAllowance src spender rest allowance.expirationLedger

/-! ### The token -/

def checkNonnegativeAmount (amount : I128) : Op A H Unit :=
  failIf (amount.val < 0) (.panicked ("negative amount is not allowed: " ++ toString amount.val))

/-- `initialize` -/
def initialise (admin : A) (decimal : U32) (name symbol : String) : Op A H Unit := do
  failIf ((← hasAdministrator) = true) (.panicked "already initialized")
  writeAdministrator admin
  failIf (decimal.val > 255) (.panicked "Decimal must fit in a u8")
  writeMetadata { decimal, name, symbol }

def mint (dest : A) (amount : I128) : Op A H Unit := do
  checkNonnegativeAmount amount
  requireAuth dest
  instanceBump
  receiveBalance dest amount
  publish (.mint dest dest amount)

def setAdmin (newAdmin : A) : Op A H Unit := do
  let admin ← readAdministrator
  requireAuth admin
  instanceBump
  writeAdministrator newAdmin
  publish (.setAdmin admin newAdmin)

def allowance (src spender : A) : Op A H I128 := do
  instanceBump
  return (← readAllowance src spender).amount

def approve (src spender : A) (amount : I128) (expirationLedger : U32) : Op A H Unit := do
  requireAuth src
  checkNonnegativeAmount amount
  instanceBump
  writeAllowance src spender amount expirationLedger
  publish (.approve src spender amount expirationLedger)

def balance (id : A) : Op A H I128 := do
  instanceBump
  readBalance id

def spendableBalance (id : A) : Op A H I128 := do
  instanceBump
  readBalance id

def transfer (src dest : A) (amount : I128) : Op A H Unit := do
  requireAuth src
  checkNonnegativeAmount amount
  instanceBump
  spendBalance src amount
  receiveBalance dest amount
  publish (.transfer src dest amount)

def transferFrom (spender src dest : A) (amount : I128) : Op A H Unit := do
  requireAuth spender
  checkNonnegativeAmount amount
  instanceBump
  spendAllowance src spender amount
  spendBalance src amount
  receiveBalance dest amount
  publish (.transfer src dest amount)

def burn (src : A) (amount : I128) : Op A H Unit := do
  requireAuth src
  checkNonnegativeAmount amount
  instanceBump
  spendBalance src amount
  publish (.burn src amount)

def burnFrom (spender src : A) (amount : I128) : Op A H Unit := do
  requireAuth spender
  checkNonnegativeAmount amount
  instanceBump
  spendAllowance src spender amount
  spendBalance src amount
  publish (.burn src amount)

def decimals : Op A H U32 := readDecimal
def name : Op A H String := readName
def symbol : Op A H String := readSymbol

end Abundance
