import TrustFlow.Book

/-!
# Juror staking

`stake` and `unstake`, the two entrypoints a juror moves tokens with.  For each
the module gives the entrypoint, the environment a success leaves
(`*_eq_ok`), and the transition of the book it amounts to (`*_book`): the
entrypoint succeeds with a book exactly when the transition leads there.
-/

namespace TrustFlow

open Invocation Purse

variable {A D : Type} [DecidableEq A] {H : Host A D}

def stake (juror : A) (amount : I128) : Op H Unit := do
  requireAuth juror
  extendInstanceTtl
  requireNotPaused
  failIf (amount.val ≤ 0) (.error .invalidAmount)
  let token ← okOr (← instanceGet .token) .unwrapNone
  tokenTransfer token juror H.self amount
  let prev ← reads fun env => env.stakeOf juror
  let newTotal ← okOr (prev.checkedAdd amount) (.error .arithmeticOverflow)
  persistentSet (.jurorStake juror) newTotal
  extendPersistentTtl (.jurorStake juror)
  publish [.symbol "stake", .symbol "staked"] (.staked juror amount newTotal)

/-- `unstake`: it has no check of the sign of `amount`; a negative one is left
    to the token to refuse. -/
def unstake (juror : A) (amount : I128) : Op H Unit := do
  requireAuth juror
  extendInstanceTtl
  requireNotPaused
  let current ← reads fun env => env.stakeOf juror
  failIf (current.val < amount.val) (.error .insufficientStake)
  let token ← okOr (← instanceGet .token) .unwrapNone
  tokenTransfer token H.self juror amount
  let remaining ← okOr (current.checkedSub amount) (.error .arithmeticOverflow)
  persistentSet (.jurorStake juror) remaining
  extendPersistentTtl (.jurorStake juror)
  publish [.symbol "stake", .symbol "unstaked"] (.unstaked juror amount remaining)

def getStake (juror : A) : Op H I128 := reads fun env => env.stakeOf juror

def getSlashCount (juror : A) : Op H U32 := reads fun env => env.slashCountOf juror

/-! ### The environment a success leaves -/

variable {auth : A → Bool} {env env' : Env H} {u : Unit} {juror : A} {amount : I128}

/-- The environment after the stake of a juror changed with a payment. -/
def Env.afterStake (env : Env H) (juror : A) (p : Purse H.tokens) (total : I128)
    (topic : String) (data : EventData A) : Env H :=
  (((env.extendInstanceTtl.setPurse p).setPersistent (.jurorStake juror)
    total).extendPersistentTtl (.jurorStake juror)).publish
    [.symbol "stake", .symbol topic] data

theorem stake_eq_ok :
    (stake juror amount : Op H Unit) auth env = .ok (u, env') ↔
      auth juror = true ∧ env.isPaused = false ∧ 0 < amount.val ∧
        ∃ token, env.inst .token = some token ∧
        ∃ p, Moves token juror H.self amount env.purse p ∧
        ∃ total : I128, total.val = (env.stakeOf juror).val + amount.val ∧
          env' = env.afterStake juror p total "staked" (.staked juror amount total) := by
  simp [stake, instanceGet, persistentSet, extendInstanceTtl, extendPersistentTtl, publish,
    Env.afterStake, and_assoc]

theorem unstake_eq_ok :
    (unstake juror amount : Op H Unit) auth env = .ok (u, env') ↔
      auth juror = true ∧ env.isPaused = false ∧ amount.val ≤ (env.stakeOf juror).val ∧
        ∃ token, env.inst .token = some token ∧
        ∃ p, Moves token H.self juror amount env.purse p ∧
        ∃ total : I128, total.val = (env.stakeOf juror).val - amount.val ∧
          env' = env.afterStake juror p total "unstaked" (.unstaked juror amount total) := by
  simp [unstake, instanceGet, persistentSet, extendInstanceTtl, extendPersistentTtl, publish,
    Env.afterStake, and_assoc]

/-! ### The transitions of the book -/

namespace Book

variable (b : Book H)

/-- `juror` adds `amount` to its stake out of its own tokens. -/
inductive Stake (auth : A → Bool) (juror : A) (amount : I128) : Book H → Prop
  | intro {token : A} {p : Purse H.tokens} {total : I128}
      (hauth : auth juror = true) (hpaused : b.settings.isPaused = false)
      (hpos : 0 < amount.val) (htoken : b.settings.token = some token)
      (hmove : Moves token juror H.self amount b.purse p)
      (htotal : total.val = (b.stake juror).val + amount.val) :
      Stake auth juror amount
        { b with purse := p, stake := Function.update b.stake juror total }

/-- `juror` takes `amount` of its stake back. -/
inductive Unstake (auth : A → Bool) (juror : A) (amount : I128) : Book H → Prop
  | intro {token : A} {p : Purse H.tokens} {total : I128}
      (hauth : auth juror = true) (hpaused : b.settings.isPaused = false)
      (hle : amount.val ≤ (b.stake juror).val) (htoken : b.settings.token = some token)
      (hmove : Moves token H.self juror amount b.purse p)
      (htotal : total.val = (b.stake juror).val - amount.val) :
      Unstake auth juror amount
        { b with purse := p, stake := Function.update b.stake juror total }

end Book

theorem Env.book_afterStake {p : Purse H.tokens} {total : I128} {topic : String}
    {data : EventData A} (hslash : Event.slashed ⟨[.symbol "stake", .symbol topic], data⟩ = 0) :
    (env.afterStake juror p total topic data).book =
      { env.book with purse := p, stake := Function.update env.book.stake juror total } := by
  simp [Env.afterStake, hslash, Event.trancheFee]

theorem stake_book {b' : Book H} :
    (∃ env', (stake juror amount : Op H Unit) auth env = .ok ((), env') ∧ env'.book = b') ↔
      Book.Stake env.book auth juror amount b' := by
  constructor
  · rintro ⟨env', h, rfl⟩
    obtain ⟨hauth, hpaused, hpos, token, htoken, p, hmove, total, htotal, rfl⟩ := stake_eq_ok.mp h
    rw [Env.book_afterStake rfl]
    exact .intro hauth hpaused hpos htoken hmove htotal
  · rintro ⟨hauth, hpaused, hpos, htoken, hmove, htotal⟩
    exact ⟨_, stake_eq_ok.mpr ⟨hauth, hpaused, hpos, _, htoken, _, hmove, _, htotal, rfl⟩,
      Env.book_afterStake rfl⟩

theorem unstake_book {b' : Book H} :
    (∃ env', (unstake juror amount : Op H Unit) auth env = .ok ((), env') ∧ env'.book = b') ↔
      Book.Unstake env.book auth juror amount b' := by
  constructor
  · rintro ⟨env', h, rfl⟩
    obtain ⟨hauth, hpaused, hle, token, htoken, p, hmove, total, htotal, rfl⟩ :=
      unstake_eq_ok.mp h
    rw [Env.book_afterStake rfl]
    exact .intro hauth hpaused hle htoken hmove htotal
  · rintro ⟨hauth, hpaused, hle, htoken, hmove, htotal⟩
    exact ⟨_, unstake_eq_ok.mpr ⟨hauth, hpaused, hle, _, htoken, _, hmove, _, htotal, rfl⟩,
      Env.book_afterStake rfl⟩

end TrustFlow
