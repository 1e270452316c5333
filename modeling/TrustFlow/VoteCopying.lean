import TrustFlow.CommitReveal

/-!
# Copied commitments

The digest a juror commits to is made of a vote and a salt; neither the juror
nor the dispute goes into it.  A second juror can store the same digest, and
when the first one has opened it the opening serves both.

`Sealed` is what becomes of a commitment in every run, and
`copied_reveal_refused_iff` says what still refuses the copy: the checks any
reveal of its author has to pass, whatever is opened.
-/

namespace TrustFlow

open Transition Invocation

variable {A D : Type} [DecidableEq A] {H : Host A D}

namespace Label

/-- What a successful `commit_vote` stored: the escrow, the juror and the digest. -/
def commitment? : Label H → Option (U64 × A × D)
  | .call _ (.commitVote id juror c) _ => some (id, juror, c)
  | _ => none

/-- What a successful `reveal_vote` made public: the escrow, the juror, the vote and
    the salt. -/
def opening? : Label H → Option (U64 × A × Bool × Vector UInt8 32)
  | .call _ (.revealVote id juror vote salt) _ => some (id, juror, vote, salt)
  | _ => none

variable {l : Label H} {id : U64} {juror : A}

theorem eq_of_commitment? {c : D} (h : l.commitment? = some (id, juror, c)) :
    ∃ auth, l = .call auth (.commitVote id juror c) () := by
  cases l with
  | call auth c r =>
      cases c <;> cases h
      exact ⟨_, rfl⟩
  | failed | close | tokens => cases h

theorem eq_of_opening? {vote : Bool} {salt : Vector UInt8 32}
    (h : l.opening? = some (id, juror, vote, salt)) :
    ∃ auth, l = .call auth (.revealVote id juror vote salt) () := by
  cases l with
  | call auth c r =>
      cases c <;> cases h
      exact ⟨_, rfl⟩
  | failed | close | tokens => cases h

end Label

/-- In the history the juror `b` stored the commitment of `a` after `a` had, and later
    `a` opened it with `vote` and `salt`. -/
structure Copied (id : U64) (a b : A) (vote : Bool) (salt : Vector UInt8 32) (h : History H) :
    Prop where
  ne : a ≠ b
  moves : ∃ (t₁ t₂ t₃ : Move (Env H) (Label H)) (c : D), [t₃, t₂, t₁].Sublist h ∧
    t₁.label.commitment? = some (id, a, c) ∧ t₂.label.commitment? = some (id, b, c) ∧
    t₃.label.opening? = some (id, a, vote, salt)

/-- What refuses every reveal of `juror` on `id`, whatever it opens. -/
def Env.ClosedTo (env : Env H) (auth : A → Bool) (id : U64) (juror : A) : Prop :=
  auth juror = false ∨ env.isPaused = true ∨
    (∀ d, env.get (.dispute id) = some d → d.resolved = true ∨
      env.sequence.val < d.commitDeadline.val ∨ d.revealDeadline.val ≤ env.sequence.val) ∨
    env.get (.jurorVote ⟨id, juror⟩) ≠ none ∨
    (env.votersOf id).toList.length = 4294967295

/-- The commitment `c` of `juror` is still stored, or the juror has revealed. -/
def Book.Sealed (b : Book H) (id : U64) (juror : A) (c : D) : Prop :=
  b.commit id juror = some c ∨ b.vote id juror ≠ none

namespace Book

variable {b b' : Book H} {l : Label H} {id : U64} {juror : A} {c : D}

/-- Only the reveal of its author removes a commitment. -/
theorem Sealed.step (hs : b.Sealed id juror c) (h : b.Step l b') : b'.Sealed id juror c := by
  have hsame (hcommit : b'.commit id = b.commit id) (hvote : b'.vote id = b.vote id) :
      b'.Sealed id juror c := by
    rw [Sealed, hcommit, hvote]
    exact hs
  cases h.on_file id with
  | untouched _ hnew => exact hsame (congrArg File.commit hnew) (congrArg File.vote hnew)
  | opened _ _ _ _ hnew => exact hsame (congrArg File.commit hnew) (congrArg File.vote hnew)
  | released _ _ _ hnew => exact hsame (congrArg File.commit hnew) (congrArg File.vote hnew)
  | raised _ _ _ hnew => exact hsame (congrArg File.commit hnew) (congrArg File.vote hnew)
  | resolved _ _ _ _ _ _ hnew => exact hsame (congrArg File.commit hnew) (congrArg File.vote hnew)
  | @committed _ juror' _ _ _ _ _ _ _ _ _ hfresh hnew =>
      have hcommit : b'.commit id = Function.update (b.commit id) juror' (some _) :=
        congrArg File.commit hnew
      have hvote : b'.vote id = b.vote id := congrArg File.vote hnew
      rw [Sealed, hcommit, hvote]
      by_cases hj : juror = juror'
      · subst hj
        rcases hs with hs | hs
        · cases hfresh.symm.trans hs
        · exact Or.inr hs
      · rw [Function.update_of_ne hj]
        exact hs
  | @revealed _ juror' vote _ _ _ _ _ _ _ _ _ _ _ _ _ hnew =>
      have hcommit : b'.commit id = Function.update (b.commit id) juror' none :=
        congrArg File.commit hnew
      have hvote : b'.vote id = Function.update (b.vote id) juror' (some vote) :=
        congrArg File.vote hnew
      rw [Sealed, hcommit, hvote]
      by_cases hj : juror = juror'
      · subst hj
        rw [Function.update_self]
        exact Or.inr (by simp)
      · rw [Function.update_of_ne hj, Function.update_of_ne hj]
        exact hs

theorem Step.sealed (h : b.Step l b') (hl : l.commitment? = some (id, juror, c)) :
    b'.Sealed id juror c := by
  rcases Label.eq_of_commitment? hl with ⟨auth, rfl⟩
  cases h.on_file id with
  | untouched hother => exact absurd rfl hother
  | opened _ hopens => cases hopens
  | committed _ _ _ _ _ _ _ hnew =>
      have hcommit : b'.commit id = Function.update (b.commit id) juror (some c) :=
        congrArg File.commit hnew
      apply Or.inl
      rw [hcommit, Function.update_self]

/-- A reveal opens the commitment that was stored. -/
theorem Step.opens_sealed {vote : Bool} {salt : Vector UInt8 32} (h : b.Step l b')
    (hl : l.opening? = some (id, juror, vote, salt)) (hs : b.Sealed id juror c) :
    c = hashVote H vote salt := by
  rcases Label.eq_of_opening? hl with ⟨auth, rfl⟩
  cases h.on_file id with
  | untouched hother => exact absurd rfl hother
  | opened _ hopens => cases hopens
  | revealed _ _ _ _ _ _ hfresh hcommit =>
      rcases hs with hs | hs
      · exact Option.some.inj (hs.symm.trans hcommit)
      · exact absurd hfresh hs

end Book

theorem Copied.of_parts {h₁ h₂ h₃ : History H} {id : U64} {a b : A} {vote : Bool}
    {salt : Vector UInt8 32} {c : D} (ne : a ≠ b)
    (h₃_opening : ∃ t ∈ h₃, t.label.opening? = some (id, a, vote, salt))
    (h₂_copy : ∃ t ∈ h₂, t.label.commitment? = some (id, b, c))
    (h₁_commitment : ∃ t ∈ h₁, t.label.commitment? = some (id, a, c)) :
    Copied id a b vote salt (h₃ ++ (h₂ ++ h₁)) := by
  rcases h₃_opening with ⟨t₃, ht₃, hl₃⟩
  rcases h₂_copy with ⟨t₂, ht₂, hl₂⟩
  rcases h₁_commitment with ⟨t₁, ht₁, hl₁⟩
  refine ⟨ne, t₁, t₂, t₃, c, ?_, hl₁, hl₂, hl₃⟩
  apply List.cons_sublist_iff.mpr ⟨h₃, h₂ ++ h₁, rfl, ht₃, ?_⟩
  apply List.cons_sublist_iff.mpr ⟨h₂, h₁, rfl, ht₂, ?_⟩
  exact List.singleton_sublist.mpr ht₁

variable [DecidableEq D] {env₀ env : Env H} {h : History H} {id : U64} {a b : A} {vote : Bool}
  {salt : Vector UInt8 32}

/-- A commitment of the history is sealed at its end. -/
theorem sealed_of_mem {t : Move (Env H) (Label H)} {juror : A} {c : D} (hr : Run Step env₀ h env)
    (ht : t ∈ h) (hl : t.label.commitment? = some (id, juror, c)) :
    env.book.Sealed id juror c := by
  rcases hr.split_mem ht with ⟨_, _, _, _, hstep, hrest⟩
  exact Run.invariant (P := fun env : Env H => env.book.Sealed id juror c)
    (hstep.book.sealed hl) (fun hs hstep => hs.step hstep.book) hrest

/-- What was opened is what both have committed to. -/
theorem Copied.sealed (hr : Run Step env₀ h env) (hcopied : Copied id a b vote salt h) :
    env.book.Sealed id b (hashVote H vote salt) := by
  rcases hcopied.moves with ⟨t₁, t₂, t₃, c, hsub, h₁, h₂, h₃⟩
  rcases List.cons_sublist_iff.mp hsub with ⟨later, earlier, rfl, ht₃, hrest⟩
  rcases List.append_of_mem ht₃ with ⟨last, between, rfl⟩
  have hmem {t : Move (Env H) (Label H)} (ht : t ∈ [t₂, t₁]) : t ∈ between ++ earlier :=
    List.mem_append_right _ (hrest.subset ht)
  have hr' : Run Step env₀ (last ++ t₃ :: (between ++ earlier)) env := by
    rw [List.append_assoc, List.cons_append] at hr
    exact hr
  rcases hr'.split with ⟨m, hm, hlast⟩
  rcases hm.last with ⟨hbefore, hstep, -⟩
  have hsealed := sealed_of_mem hbefore (hmem (by simp)) h₁
  cases hstep.book.opens_sealed h₃ hsealed
  exact sealed_of_mem hr' (List.mem_append_right _ (List.mem_cons_of_mem _ (hmem (by simp)))) h₂

/-- The copy of an opened commitment is refused exactly when every reveal of its author
    would be. -/
theorem copied_reveal_refused_iff (hr : Run Step env₀ h env)
    (hcopied : Copied id a b vote salt h) (auth : A → Bool) :
    (¬ ∃ env', (revealVote id b vote salt : Op H Unit) auth env = .ok ((), env')) ↔
      env.ClosedTo auth id b := by
  have hsealed := hcopied.sealed hr
  constructor
  · intro hrefused
    by_contra hopen
    simp only [Env.ClosedTo, not_or, not_forall] at hopen
    rcases hopen with ⟨hauth, hpaused, ⟨d, hd, hunresolved, hfrom, huntil⟩, hfresh, hroom⟩
    have hfresh := not_not.mp hfresh
    have hcommit : env.get (.jurorCommit ⟨id, b⟩) = some (hashVote H vote salt) :=
      hsealed.resolve_right fun hvoted => hvoted hfresh
    have hlength := (env.votersOf id).length_le
    refine hrefused ⟨_, revealVote_eq_ok.mpr ⟨by simpa using hauth, by simpa using hpaused, d, hd,
      by simpa using hunresolved, by omega, by omega, hfresh, hcommit,
      ⟨(env.votersOf id).toList ++ [b], by simp; omega⟩, rfl, rfl⟩⟩
  · rintro hclosed ⟨env', hok⟩
    rcases revealVote_eq_ok.mp hok with ⟨hauth, hpaused, d, hd, hopen, hfrom, huntil, hfresh, -,
      voters, hvoters, -⟩
    rcases hclosed with hc | hc | hc | hc | hc
    · cases hauth.symm.trans hc
    · cases hpaused.symm.trans hc
    · rcases hc d hd with hc | hc | hc
      · cases hopen.symm.trans hc
      · omega
      · omega
    · exact hc hfresh
    · have hlength := voters.length_le
      rw [hvoters, List.length_append, hc] at hlength
      simp at hlength

/-- The juror 5 stores the commitment of the juror 3, who opens it. -/
def copiedVote : List (Action Nat (List UInt8)) :=
  [.call (fun a => a == 1) (.initialise 1 9 DEFAULT_SLASH_BPS),
    .call (fun a => a == 2) (.createEscrow 2 4 (.ofNat 100)),
    .call (fun a => a == 3) (.stake 3 (.ofNat 30)),
    .call (fun a => a == 5) (.stake 5 (.ofNat 30)),
    .call (fun a => a == 4) (.raiseDispute 1 4 "late"),
    .call (fun a => a == 3) (.commitVote 1 3 (0 :: List.replicate 32 7)),
    .call (fun a => a == 5) (.commitVote 1 5 (0 :: List.replicate 32 7)),
    .close (.ofNat 17281),
    .call (fun a => a == 3) (.revealVote 1 3 false (Vector.replicate 32 7))]

/-- After the reveal window the copy is refused like any other reveal. -/
theorem copied_reveal_refused_iff_sample :
    ∃ (h : History Host.plain) (env : Env Host.plain), Run Step Env.deployed h env ∧
      Copied 1 3 5 false (Vector.replicate 32 7) h ∧ env.isPaused = false ∧
      env.get (.jurorVote ⟨1, 5⟩) = none ∧
      ¬ ∃ env', (revealVote 1 5 false (Vector.replicate 32 7) : Op Host.plain Unit)
        (fun a => a == 5) env = .ok ((), env') := by
  rcases Env.exists_of_plays (copiedVote ++ [.close (.ofNat 34561)])
    (fun h env =>
      (h.take 2).any (·.label.opening? = some (1, 3, false, Vector.replicate 32 7)) &&
      ((h.drop 2).take 2).any (·.label.commitment? = some (1, 5, 0 :: List.replicate 32 7)) &&
      ((h.drop 2).drop 2).any (·.label.commitment? = some (1, 3, 0 :: List.replicate 32 7)) &&
      decide (env.isPaused = false ∧ env.get (.jurorVote ⟨1, 5⟩) = none ∧ env.sequence.val = 34561 ∧
      (env.get (.dispute 1)).map (fun d => d.revealDeadline.val) = some 34561))
    (by decide +kernel) with ⟨h, env, hs, hend⟩
  simp only [Bool.and_eq_true, List.any_eq_true, decide_eq_true_eq] at hend
  rcases hend with ⟨⟨⟨hopening, hcopy⟩, hcommit⟩, hpaused, hvote, hnow, hdeadline⟩
  have hcopied := Copied.of_parts (by decide) hopening hcopy hcommit
  rw [List.take_append_drop, List.take_append_drop] at hcopied
  refine ⟨h, env, hs.run, hcopied, hpaused, hvote,
    (copied_reveal_refused_iff hs.run hcopied _).mpr ?_⟩
  refine Or.inr (Or.inr (Or.inl fun d hd => Or.inr (Or.inr ?_)))
  rw [hd, Option.map_some, Option.some.injEq] at hdeadline
  omega

/-- Within the window it is accepted, although the hash has no collision at all. -/
theorem copied_reveal_accepted :
    ∃ (h : History Host.plain) (env : Env Host.plain)
      (t : Move (Env Host.plain) (Label Host.plain)),
      Host.plain.CollisionFree ∧ SingleInit Env.deployed (t :: h) env ∧
      Copied 1 3 5 false (Vector.replicate 32 7) h ∧
      t.label.opening? = some (1, 5, false, Vector.replicate 32 7) ∧
      env.get (.jurorVote ⟨1, 5⟩) = some false := by
  rcases Env.exists_of_plays (copiedVote ++
      [.call (fun a => a == 5) (.revealVote 1 5 false (Vector.replicate 32 7))])
    (fun h env =>
      h.head?.any (·.label.opening? = some (1, 5, false, Vector.replicate 32 7)) &&
      (h.tail.take 2).any (·.label.opening? = some (1, 3, false, Vector.replicate 32 7)) &&
      ((h.tail.drop 2).take 1).any (·.label.commitment? = some (1, 5, 0 :: List.replicate 32 7)) &&
      ((h.tail.drop 2).drop 1).any (·.label.commitment? = some (1, 3, 0 :: List.replicate 32 7)) &&
      decide (env.get (.jurorVote ⟨1, 5⟩) = some false)) (by decide +kernel) with ⟨h, env, hs, hend⟩
  simp only [Bool.and_eq_true, List.any_eq_true, Option.any_eq_true, decide_eq_true_eq] at hend
  rcases hend with ⟨⟨⟨⟨⟨t, ht, hreveal⟩, hopening⟩, hcopy⟩, hcommit⟩, hvote⟩
  rcases List.head?_eq_some_iff.mp ht with ⟨h, rfl⟩
  have hcopied := Copied.of_parts (by decide) hopening hcopy hcommit
  rw [List.take_append_drop, List.take_append_drop] at hcopied
  exact ⟨h, env, t, fun _ _ _ _ heq => heq, hs, hcopied, hreveal, hvote⟩

end TrustFlow
