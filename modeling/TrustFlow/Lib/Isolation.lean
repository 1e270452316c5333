import TrustFlow.Lib.Run

/-!
# Parts of a state that nothing else reaches

`own` picks the transitions that concern a part of the state, with what they say
about it, and `out` is what a transition gives away on account of that part.  A
part is isolated when the other transitions leave it alone and give nothing away
for it, and its own ones determine what they leave and give.  Two runs that
agree on the part's own transitions then agree on the part and on all that was
given away for it (`Isolates.agree`), whatever else happens in either.
-/

namespace Transition

variable {σ ℓ V E O : Type*} {step : σ → ℓ → σ → Prop} {own : Move σ ℓ → Option E} {part : σ → V}
  {out : Move σ ℓ → List O}

structure Isolates (step : σ → ℓ → σ → Prop) (own : Move σ ℓ → Option E) (part : σ → V)
    (out : Move σ ℓ → List O) : Prop where
  keeps : ∀ {s l s'}, step s l s' → own ⟨s, l, s'⟩ = none →
    part s' = part s ∧ out ⟨s, l, s'⟩ = []
  tells : ∀ {s l s' r m r' e}, step s l s' → step r m r' → own ⟨s, l, s'⟩ = some e →
    own ⟨r, m, r'⟩ = some e → part r = part s → part r' = part s' ∧
      out ⟨r, m, r'⟩ = out ⟨s, l, s'⟩

namespace Isolates

variable {s₀ s r₀ r : σ} {h g : List (Move σ ℓ)}

theorem eq_of_silent (hI : Isolates step own part out) (hr : Run step s₀ h s)
    (hown : h.filterMap own = []) : part s = part s₀ ∧ h.flatMap out = [] := by
  induction hr with
  | nil => exact ⟨rfl, rfl⟩
  | snoc _ hs ih =>
      rw [List.filterMap_cons] at hown
      split at hown
      · next hnone =>
        rcases hI.keeps hs hnone with ⟨hpart, hout⟩
        rcases ih hown with ⟨hearlier, hsilent⟩
        exact ⟨hpart.trans hearlier, by rw [List.flatMap_cons, hout, hsilent, List.append_nil]⟩
      · cases hown

/-- The last transition of the part's own, the run before it, and a part that has not
    changed since. -/
theorem last (hI : Isolates step own part out) {e : E} {es : List E} (hr : Run step s₀ h s)
    (hown : h.filterMap own = e :: es) : ∃ t earlier, Run step s₀ earlier t.pre ∧
      step t.pre t.label t.post ∧ own t = some e ∧ earlier.filterMap own = es ∧
      part s = part t.post ∧ h.flatMap out = out t ++ earlier.flatMap out := by
  induction hr with
  | nil => cases hown
  | @snoc h s l s' hr hs ih =>
      rw [List.filterMap_cons] at hown
      split at hown
      · next hnone =>
        rcases hI.keeps hs hnone with ⟨hkept, hout⟩
        rcases ih hown with ⟨t, earlier, he, ht, hsome, hrest, hpart, hgiven⟩
        refine ⟨t, earlier, he, ht, hsome, hrest, hkept.trans hpart, ?_⟩
        rw [List.flatMap_cons, hout, List.nil_append, hgiven]
      · next e' hsome =>
        cases hown
        exact ⟨⟨s, l, s'⟩, h, hr, hs, hsome, rfl, rfl, List.flatMap_cons⟩

/-- Two runs that do the same to a part leave the same of it. -/
theorem agree (hI : Isolates step own part out) (hr : Run step s₀ h s) (hr' : Run step r₀ g r)
    (h0 : part r₀ = part s₀) (hown : g.filterMap own = h.filterMap own) :
    part r = part s ∧ g.flatMap out = h.flatMap out := by
  generalize hes : h.filterMap own = es at hown
  induction es generalizing s r h g with
  | nil =>
      rcases hI.eq_of_silent hr hes with ⟨hpart, hout⟩
      rcases hI.eq_of_silent hr' hown with ⟨hpart', hout'⟩
      rw [hpart, hpart', hout, hout']
      exact ⟨h0, rfl⟩
  | cons e es ih =>
      rcases hI.last hr hes with ⟨t, earlier, he, ht, hsome, hrest, hpart, hout⟩
      rcases hI.last hr' hown with ⟨t', earlier', he', ht', hsome', hrest', hpart', hout'⟩
      rcases ih he he' hrest hrest' with ⟨hbefore, hgiven⟩
      rcases hI.tells ht ht' hsome hsome' hbefore with ⟨hafter, hgives⟩
      rw [hpart, hpart', hout, hout', hgiven]
      exact ⟨hafter, congrArg (· ++ _) hgives⟩

end Isolates

end Transition
