import TrustFlow.Abundance.Calls
import TrustFlow.MockToken.Contract
import TrustFlow.Lib.Lockstep

/-!
# The mock token stands for the real one

Flows are tested against the mock token and deployed against the abundance
token.  On the calls the mock token has, the two answer alike, as long as who
authorises a mint is either both the mock's administrator and the receiver or
none of them: there the mock asks its administrator and the other token the
receiver.
-/

namespace MockToken

open Invocation

variable {A : Type} {H : Abundance.Host}

/-- The two tokens tell the same balances and metadata, and both are initialised. -/
structure Matches (admin : A) (env : Env A) (token : Abundance.Env A H) : Prop where
  balance : ∀ a, env.balanceOf a = token.balanceOf a
  admin : env.inst .admin = some admin
  administered : (token.inst .admin).isSome = true
  metadata : env.inst .metadata = token.metadata.map fun m => ⟨m.decimal, m.name, m.symbol⟩

/-! ### The parts -/

section Parts

variable {admin a : A} {auth : A → Bool} {env : Env A} {token token' : Abundance.Env A H}

theorem Matches.requireAuth (h : Matches admin env token) :
    Agree (Matches admin) (requireAuth a auth env) (Abundance.requireAuth a auth token) := by
  unfold MockToken.requireAuth Abundance.requireAuth
  split
  · exact .returned h
  · exact .failed

theorem Matches.of_agrees (h : Matches admin env token)
    (hb : ∀ x, token'.balanceOf x = token.balanceOf x)
    (hinst : token'.instanceStore = token.instanceStore)
    (hmeta : token'.metadata = token.metadata) :
    Matches admin env token' where
  balance x := (h.balance x).trans (hb x).symm
  admin := h.admin
  administered := by
    rw [Abundance.Env.inst, hinst]
    exact h.administered
  metadata := by
    rw [hmeta]
    exact h.metadata

theorem Matches.bumpInstance (h : Matches admin env token) :
    Matches admin env token.bumpInstance :=
  h.of_agrees (fun _ => rfl) rfl rfl

theorem Matches.publish {e : Abundance.Event A} (h : Matches admin env token) :
    Matches admin env (token.publish e) :=
  h.of_agrees (fun _ => rfl) rfl rfl

/-- The metadata is read, or the call fails for the lack of it. -/
theorem Matches.metadata_bind {α : Type} {f : TokenMetadata → Op A α}
    {f' : Abundance.TokenMetadata → Abundance.Op A H α} (h : Matches admin env token)
    (hf : ∀ m, Agree (Matches admin) (f ⟨m.decimal, m.name, m.symbol⟩ auth env)
      (f' m auth token)) :
    Agree (Matches admin)
      ((instanceGet .metadata >>= fun o => okOr o .unwrapNone >>= f) auth env)
      ((Abundance.getMetadata >>= f') auth token) := by
  have hget : instanceGet .metadata auth env = .ok (env.inst .metadata, env) := rfl
  rw [bind_of_ok hget, h.metadata]
  cases hmeta : token.metadata with
  | none =>
      have hnone : (Abundance.getMetadata : Abundance.Op A H _) auth token =
          .error .unwrapNone := by
        simp [Abundance.getMetadata, hmeta]
      rw [bind_of_error hnone]
      exact .failed
  | some m =>
      rw [bind_of_ok (Abundance.getMetadata_eq_ok.mpr ⟨hmeta, rfl⟩)]
      exact hf m

end Parts

variable [DecidableEq A]

/-- A call of the mock token as a call of the abundance token. -/
def Call.onAbundance : Call A → Abundance.Op A H Reply
  | .initialise admin decimal n s => do
      Abundance.initialise admin decimal n s
      return .done
  | .mint dest amount => do
      Abundance.mint dest amount
      return .done
  | .transfer src dest amount => do
      Abundance.transfer src dest amount
      return .done
  | .balance addr => return .amount (← Abundance.balance addr)
  | .decimals => return .number (← Abundance.decimals)
  | .name => return .text (← Abundance.name)
  | .symbol => return .text (← Abundance.symbol)

/-- Whoever authorises a mint to `dest` does so for both tokens, or for none. -/
def AuthorisesAlike (admin : A) (auth : A → Bool) : Call A → Prop
  | .mint dest _ => auth admin = auth dest
  | _ => True

/-! ### The entrypoints -/

section Entrypoints

variable {admin a src dest : A} {auth : A → Bool} {env : Env A} {token : Abundance.Env A H}
  {n : I128}

theorem Matches.bumpBalance (h : Matches admin env token) :
    Matches admin env (token.bumpBalance a) :=
  h.of_agrees (fun _ => Abundance.Env.balanceOf_bumpBalance) rfl rfl

/-- The same amount is written to the same balance. -/
theorem Matches.put (h : Matches admin env token) :
    Matches admin (env.setPersistent (.balance a) n) (token.putBalance a n) where
  balance x := by
    by_cases hx : x = a
    · subst hx
      rw [Env.balanceOf_setPersistent_self, Abundance.Env.balanceOf_putBalance_self]
    · rw [Env.balanceOf_setPersistent_of_ne hx, Abundance.Env.balanceOf_putBalance_of_ne hx,
        h.balance]
  admin := h.admin
  administered := h.administered
  metadata := h.metadata

theorem Matches.set (h : Matches admin env token) :
    Agree (Matches admin) (persistentSet (.balance a) n auth env)
      (Abundance.writeBalance a n auth token) := by
  have hwrite : Abundance.writeBalance a n auth token = .ok ((), token.putBalance a n) :=
    Abundance.writeBalance_eq_ok.mpr rfl
  rw [hwrite]
  exact .returned h.put

/-- A balance is read, on the one side together with an extension of its entry. -/
theorem Matches.balance_bind {α : Type} {f : I128 → Op A α} {f' : I128 → Abundance.Op A H α}
    (h : Matches admin env token)
    (hf : ∀ token', Matches admin env token' →
      Agree (Matches admin) (f (env.balanceOf a) auth env) (f' (env.balanceOf a) auth token')) :
    Agree (Matches admin) ((MockToken.balance a >>= f) auth env)
      ((Abundance.readBalance a >>= f') auth token) := by
  rw [bind_of_ok balance_eq, bind_of_ok Abundance.readBalance_eq, ← h.balance]
  exact hf _ h.bumpBalance

/-- The last write, on the one side together with an event. -/
theorem Matches.write_publish {e : Abundance.Event A} (h : Matches admin env token) :
    Agree (Matches admin) (persistentSet (.balance a) n auth env)
      ((Abundance.writeBalance a n >>= fun _ => Abundance.publish e) auth token) := by
  have hwrite : Abundance.writeBalance a n auth token = .ok ((), token.putBalance a n) :=
    Abundance.writeBalance_eq_ok.mpr rfl
  rw [bind_of_ok hwrite]
  exact .returned h.put.publish

theorem Matches.transfer (h : Matches admin env token) :
    Agree (Matches admin) (transfer src dest n auth env)
      (Abundance.transfer src dest n auth token) := by
  simp only [MockToken.transfer, Abundance.transfer, Abundance.spendBalance,
    Abundance.receiveBalance, Abundance.checkNonnegativeAmount, bind_assoc]
  apply h.requireAuth.bind
  intro _ _ _ h
  apply (Agree.failIf h Iff.rfl).bind
  intro _ _ token h
  have hbump : Abundance.instanceBump auth token = .ok ((), token.bumpInstance) := rfl
  rw [bind_of_ok hbump]
  apply h.bumpInstance.balance_bind
  intro _ h
  apply (Agree.failIf h Iff.rfl).bind
  intro _ _ _ h
  apply (Agree.okOr h).bind
  intro _ _ _ h
  apply h.set.bind
  -- the credit starts from what the debit left
  intro _ _ _ h
  apply h.balance_bind
  intro _ h
  apply (Agree.okOr h).bind
  intro total _ token h
  exact h.write_publish

theorem Matches.mint (h : Matches admin env token) (hauth : auth admin = auth dest) :
    Agree (Matches admin) (mint dest n auth env) (Abundance.mint dest n auth token) := by
  simp only [MockToken.mint, Abundance.mint, Abundance.receiveBalance,
    Abundance.checkNonnegativeAmount, bind_assoc]
  have hget : instanceGet .admin auth env = .ok (some admin, env) := by
    rw [← h.admin]
    rfl
  have hadmin : (okOr (some admin) .unwrapNone : Op A A) auth env = .ok (admin, env) := rfl
  rw [bind_of_ok hget, bind_of_ok hadmin]
  by_cases hdest : auth dest = true
  · have hleft : MockToken.requireAuth admin auth env = .ok ((), env) :=
      MockToken.requireAuth_eq_ok.mpr ⟨hauth.trans hdest, rfl⟩
    rw [bind_of_ok hleft]
    apply (Agree.failIf h Iff.rfl).bind
    intro _ _ token h
    have hright : Abundance.requireAuth dest auth token = .ok ((), token) :=
      Abundance.requireAuth_eq_ok.mpr ⟨hdest, rfl⟩
    have hbump : Abundance.instanceBump auth token = .ok ((), token.bumpInstance) := rfl
    rw [bind_of_ok hright, bind_of_ok hbump]
    apply h.bumpInstance.balance_bind
    intro _ h
    apply (Agree.okOr h).bind
    intro total _ token h
    exact h.write_publish
  · -- the checks come in different orders, but the call fails at one of them
    apply Agree.of_never
    · intro _ _ hok
      rw [bind_eq_ok] at hok
      rcases hok with ⟨_, _, hleft, _⟩
      exact hdest (hauth ▸ (requireAuth_eq_ok.mp hleft).1)
    · intro _ _ hok
      simp only [bind_eq_ok, Abundance.requireAuth_eq_ok] at hok
      rcases hok with ⟨_, _, _, _, _, ⟨hright, _⟩, _⟩
      exact hdest hright

/-- Neither token is initialised again. -/
theorem Matches.initialise {decimal : U32} {name symbol : String} (h : Matches admin env token) :
    Agree (Matches admin) (initialise a decimal name symbol auth env)
      (Abundance.initialise a decimal name symbol auth token) := by
  apply Agree.of_never
  · intro _ _ hok
    have hnone := (initialise_eq_ok.mp hok).1
    rw [h.admin] at hnone
    cases hnone
  · intro _ _ hok
    have hadministered := h.administered
    simp only [Abundance.initialise, Abundance.hasAdministrator, Abundance.instanceGet, bind_eq_ok,
      reads_eq_ok, pure_eq_ok, failIf_eq_ok] at hok
    rcases hok with ⟨_, _, ⟨_, _, ⟨rfl, rfl⟩, rfl, rfl⟩, _, _, ⟨hnot, _⟩, _⟩
    exact hnot hadministered

theorem Matches.exec {c : Call A} (h : Matches admin env token)
    (hc : AuthorisesAlike admin auth c) :
    Agree (Matches admin) (c.exec auth env) (c.onAbundance auth token) := by
  cases c with
  | initialise => exact h.initialise.bind fun _ _ _ h => .returned h
  | mint => exact (h.mint hc).bind fun _ _ _ h => .returned h
  | transfer => exact h.transfer.bind fun _ _ _ h => .returned h
  | balance a =>
      have hbump : Abundance.instanceBump auth token = .ok ((), token.bumpInstance) := rfl
      simp only [Call.exec, Call.onAbundance, Abundance.balance, bind_assoc]
      rw [bind_of_ok hbump]
      apply h.bumpInstance.balance_bind
      exact fun _ h => .returned h
  | decimals =>
      simp only [Call.exec, Call.onAbundance, decimals, Abundance.decimals, Abundance.readDecimal,
        bind_assoc]
      exact h.metadata_bind fun _ => .returned h
  | name =>
      simp only [Call.exec, Call.onAbundance, name, Abundance.name, Abundance.readName, bind_assoc]
      exact h.metadata_bind fun _ => .returned h
  | symbol =>
      simp only [Call.exec, Call.onAbundance, symbol, Abundance.symbol, Abundance.readSymbol,
        bind_assoc]
      exact h.metadata_bind fun _ => .returned h

/-- Two fresh tokens are initialised alike. -/
theorem Matches.of_fresh (a : A) (auth : A → Bool) {decimal : U32} (name symbol : String)
    (hfresh : env.Fresh) (hfresh' : token.Fresh) (hdecimal : decimal.val ≤ 255) :
    ∃ env' token', (Call.initialise a decimal name symbol).exec auth env = .ok (.done, env') ∧
      (Call.initialise a decimal name symbol).onAbundance auth token = .ok (.done, token') ∧
      Matches a env' token' := by
  have hleft : MockToken.initialise a decimal name symbol auth env =
      .ok ((), (env.setInstance .admin a).setInstance .metadata ⟨decimal, name, symbol⟩) :=
    initialise_eq_ok.mpr ⟨hfresh.no_instance _, rfl⟩
  have hright : Abundance.initialise a decimal name symbol auth token =
      .ok ((), (token.setInstance .admin a).setMetadata ⟨decimal, name, symbol⟩) := by
    have hnone : (token.inst .admin).isSome = false := by
      rw [hfresh'.no_instance]
      rfl
    simp only [Abundance.initialise, Abundance.hasAdministrator, Abundance.instanceGet,
      Abundance.writeAdministrator, Abundance.instanceSet, Abundance.writeMetadata, bind_eq_ok,
      reads_eq_ok, pure_eq_ok, failIf_eq_ok, modify_eq_ok]
    exact ⟨_, _, ⟨_, _, ⟨rfl, rfl⟩, rfl, rfl⟩, (), _, ⟨by simp [hnone], rfl⟩, (), _, rfl, (), _,
      ⟨not_lt.mpr hdecimal, rfl⟩, rfl⟩
  refine ⟨(env.setInstance .admin a).setInstance .metadata ⟨decimal, name, symbol⟩,
    (token.setInstance .admin a).setMetadata ⟨decimal, name, symbol⟩, ?_, ?_, ?_⟩
  · rw [Call.exec, bind_of_ok hleft]
    rfl
  · rw [Call.onAbundance, bind_of_ok hright]
    rfl
  · constructor
    · intro x
      have hmock : env.balanceOf x = 0 := by
        rw [Env.balanceOf, hfresh.no_persistent]
        rfl
      have htoken : token.balanceOf x = 0 := by
        rw [Abundance.Env.balanceOf, hfresh'.no_persistent]
        rfl
      exact hmock.trans htoken.symm
    · simp
    · simp [Abundance.Env.inst, Abundance.Env.setInstance, Abundance.Env.setMetadata]
    · simp [Abundance.Env.setMetadata]

/-- A fresh mock token and a fresh abundance token that are initialised alike answer
    every sequence of the mock's calls alike, failures included, and end with the
    same balances, as long as the mints are authorised alike. -/
theorem agrees_with_abundance {decimal : U32} {name symbol : String}
    {requests script : List ((A → Bool) × Call A)} (hfresh : env.Fresh) (hfresh' : token.Fresh)
    (hdecimal : decimal.val ≤ 255)
    (hrequests : requests = (auth, .initialise admin decimal name symbol) :: script)
    (halike : ∀ q ∈ script, AuthorisesAlike admin q.1 q.2) :
    (serve Call.exec requests env).1 = (serve Call.onAbundance requests token).1 ∧
      ∀ a, (serve Call.exec requests env).2.balanceOf a =
        (serve Call.onAbundance requests token).2.balanceOf a := by
  subst hrequests
  obtain ⟨env', token', hexec, hexec', hmatches⟩ :=
    Matches.of_fresh admin auth name symbol hfresh hfresh' hdecimal
  have hexecs : ∀ auth c env (token : Abundance.Env A H), AuthorisesAlike admin auth c →
      Matches admin env token →
      Agree (Matches admin) (Call.exec c auth env) (Call.onAbundance c auth token) :=
    fun _ _ _ _ hc h => h.exec hc
  have hserve := Agree.serve hexecs halike hmatches
  simp only [serve, hexec, hexec']
  exact ⟨congrArg (some Reply.done :: ·) hserve.1, hserve.2.balance⟩

/-- Whoever asks, every caller authorises everything, as in the tests. -/
def paymentScript : List ((Nat → Bool) × Call Nat) :=
  [(fun _ => true, .mint 1 (.ofNat 1000)),
    (fun _ => true, .transfer 1 2 (.ofNat 400)),
    (fun x => x == 1, .transfer 2 1 (.ofNat 400)),
    (fun _ => true, .transfer 1 2 (.ofNat 601)),
    (fun _ => true, .transfer 1 1 (.ofNat 600)),
    (fun _ => true, .balance 1),
    (fun _ => true, .symbol)]

theorem agrees_with_abundance_sample :
    (serve Call.onAbundance ((fun _ => true, .initialise 9 (.ofNat 6) "Mock USDC" "MUSDC") ::
      paymentScript) Abundance.Env.deployed).1 =
    [some .done, some .done, some .done, none, none, some .done, some (.amount (.ofNat 600)),
      some (.text "MUSDC")] := by
  have halike : ∀ q ∈ paymentScript, AuthorisesAlike 9 q.1 q.2 := by
    simp [paymentScript, AuthorisesAlike]
  rw [← (agrees_with_abundance Env.deployed_fresh Abundance.Env.deployed_fresh (by decide) rfl
    halike).1]
  decide +kernel

end Entrypoints

end MockToken
