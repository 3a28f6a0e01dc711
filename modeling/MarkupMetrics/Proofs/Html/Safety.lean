import MarkupMetrics.Proofs.Html.Tracking

/-
  This file proves that building goes on as long as the calls
  can be carried out: a step that starts with a tracked
  builder ends with one.

  The only other end is the fault of a declaration that is
  cut off.  What is known to be made stays known, as nothing
  is ever forgotten.

  Key definitions include:
    * `Ends`
    * `Safe`
    * `Adds`

  Key theorems include:
    * `Safe.bind`
    * `Safe.read`
    * `Adds.safe`
    * `Adds.lift`
-/

namespace MarkupMetrics

namespace Html

open Dom MarkupMetrics.Outcome

------------------------------------------------------------
-- Ends
------------------------------------------------------------

variable {α β : Type}
variable {reason : Prop}

/-
  A computation has a result with a property, or it comes to
  the fault of a cut-off declaration, for a reason.
-/
def Ends
    (reason : Prop)
    (P : α → Prop)
    (x : Except Fault α) : Prop :=
  (∃ a, x = .ok a ∧ P a) ∨
    x = .error .cutOffDeclaration ∧ reason

namespace Ends

variable {P : α → Prop}
variable {Q : β → Prop}

theorem ok
    {a : α}
    (hA : P a) :
    Ends reason P (.ok a) :=
  Or.inl ⟨a, rfl, hA⟩

theorem bind
    {x : Except Fault α}
    {f : α → Except Fault β}
    (hFirst : Ends reason P x)
    (hNext : ∀ a, P a → Ends reason Q (f a)) :
    Ends reason Q (x >>= f) := by
  rcases hFirst with ⟨a, rfl, hA⟩ | ⟨rfl, hWhy⟩
  · exact hNext a hA
  · exact Or.inr ⟨rfl, hWhy⟩

theorem imp
    {x : Except Fault α}
    {P' : α → Prop}
    {reason' : Prop}
    (hEnds : Ends reason P x)
    (hReason : reason → reason')
    (hEach : ∀ a, P a → P' a) :
    Ends reason' P' x := by
  rcases hEnds with ⟨a, hDone, hA⟩ | ⟨hFault, hWhy⟩
  · exact Or.inl ⟨a, hDone, hEach a hA⟩
  · exact Or.inr ⟨hFault, hReason hWhy⟩

end Ends

------------------------------------------------------------
-- Running
------------------------------------------------------------

/- The present state is looked up. -/
theorem get_bind
    (f : Builder → Build α)
    (b : Builder) :
    (get >>= f) b = f b b :=
  rfl

theorem modify_bind
    (f : Builder → Builder)
    (g : PUnit → Build β)
    (b : Builder) :
    (modify f >>= g) b = g ⟨⟩ (f b) :=
  rfl

theorem emit_bind
    (call : TreeCall Handle)
    (f : Unit → Build β)
    (b : Builder) :
    (emit call >>= f) b =
      f () { b with calls := call :: b.calls } :=
  rfl

theorem make_bind
    (call : TreeCall Handle)
    (f : Handle → Build β)
    (b : Builder) :
    (make call >>= f) b =
      f (b.made + 1)
        { b with calls := call :: b.calls, made := b.made + 1 } :=
  rfl

/- What comes first is run first. -/
theorem bind_of_ok
    {x : Build α}
    {f : α → Build β}
    {b b' : Builder}
    {a : α}
    (hRun : x b = .ok (a, b')) :
    (x >>= f) b = f a b' := by
  change (x b >>= fun r => f r.1 r.2) = f a b'
  rw [hRun]
  rfl

theorem bind_of_error
    {x : Build α}
    {f : α → Build β}
    {b : Builder}
    {why : Fault}
    (hRun : x b = .error why) :
    (x >>= f) b = .error why := by
  change (x b >>= fun r => f r.1 r.2) = .error why
  rw [hRun]
  rfl

------------------------------------------------------------
-- Safe steps
------------------------------------------------------------

/-
  A step keeps a builder tracked, beside its open elements.
  Some number of nodes has been made before.
-/
def Safe
    (t : Tree)
    (reason : Prop)
    (n : Nat)
    (P : α → Prop)
    (x : Build α) : Prop :=
  ∀ b a, n ≤ b.made → Tracks t b.nest b a →
    Ends reason
      (fun r =>
        P r.1 ∧ b.made ≤ r.2.made ∧
          ∃ a', Tracks t r.2.nest r.2 a')
      (x b)

/- The same, whatever the result is. -/
abbrev Proceeds
    (t : Tree)
    (reason : Prop)
    (n : Nat)
    (x : Build α) : Prop :=
  Safe t reason n (fun _ => True) x

variable {t : Tree}
variable {n : Nat}
variable {P : α → Prop}
variable {Q : β → Prop}

namespace Safe

theorem pure
    {a : α}
    (hA : P a) :
    Safe t reason n P (Pure.pure a) :=
  fun _ a' _ hTracks =>
    Ends.ok ⟨hA, Nat.le_refl _, a', hTracks⟩

theorem bind
    {x : Build α}
    {f : α → Build β}
    (hFirst : Safe t reason n P x)
    (hNext : ∀ a, P a → Safe t reason n Q (f a)) :
    Safe t reason n Q (x >>= f) := by
  intro b a hMade hTracks
  refine (hFirst b a hMade hTracks).bind ?_
  rintro ⟨r, b'⟩ ⟨hR, hMore, a', hTracks'⟩
  refine
    (hNext r hR b' a' (Nat.le_trans hMade hMore) hTracks').imp
      id ?_
  rintro s ⟨hS, hMost, hRest⟩
  exact ⟨hS, Nat.le_trans hMore hMost, hRest⟩

theorem done
    (a : α) :
    Proceeds t reason n (Pure.pure a) :=
  pure trivial

/- The next step need not know what came before. -/
theorem andThen
    {x : Build α}
    {y : Build β}
    (hFirst : Safe t reason n P x)
    (hNext : Safe t reason n Q y) :
    Safe t reason n Q (x >>= fun _ => y) :=
  hFirst.bind fun _ _ => hNext

/- What is looked up is tracked. -/
theorem read
    {f : Builder → Build β}
    (hNext :
      ∀ b a, n ≤ b.made → Tracks t b.nest b a →
        Safe t reason b.made Q (f b)) :
    Safe t reason n Q (get >>= f) :=
  fun b a hMade hTracks =>
    hNext b a hMade hTracks b a (Nat.le_refl _) hTracks

/- Often it does not matter what is. -/
theorem get
    {f : Builder → Build β}
    (hNext : ∀ b, Safe t reason n Q (f b)) :
    Safe t reason n Q (MonadState.get >>= f) :=
  fun b a hMade hTracks => hNext b b a hMade hTracks

theorem ite
    {c : Prop}
    [Decidable c]
    {x y : Build α}
    (hThen : c → Safe t reason n P x)
    (hElse : ¬ c → Safe t reason n P y) :
    Safe t reason n P (if c then x else y) := by
  by_cases hTest : c
  · rw [if_pos hTest]
    exact hThen hTest
  · rw [if_neg hTest]
    exact hElse hTest

/- A step that may be left out. -/
theorem when
    {c : Prop}
    [Decidable c]
    {x : Build PUnit}
    (hX : Proceeds t reason n x) :
    Proceeds t reason n (if c then x else Pure.pure ⟨⟩) :=
  ite (fun _ => hX) (fun _ => pure trivial)

/- A step that may be left out on the way. -/
theorem detour
    {c : Prop}
    [Decidable c]
    {x : Build PUnit}
    {y : Build β}
    (hX : Proceeds t reason n x)
    (hY : Safe t reason n Q y) :
    Safe t reason n Q (if c then x >>= fun _ => y else y) :=
  ite (fun _ => hX.andThen hY) (fun _ => hY)

theorem imp
    {x : Build α}
    {P' : α → Prop}
    (hSafe : Safe t reason n P x)
    (hEach : ∀ a, P a → P' a) :
    Safe t reason n P' x :=
  fun b a hMade hTracks =>
    (hSafe b a hMade hTracks).imp id fun _ hR =>
      ⟨hEach _ hR.1, hR.2⟩

theorem mapM
    {γ : Type}
    {items : List γ}
    {f : γ → Build α}
    (hEach : ∀ item ∈ items, Safe t reason n P (f item)) :
    Safe t reason n (fun all => ∀ a ∈ all, P a)
      (items.mapM f) := by
  induction items with
  | nil =>
      rw [List.mapM_nil]
      exact pure (fun _ hMember => nomatch hMember)
  | cons item items ih =>
      rw [List.mapM_cons]
      refine (hEach item List.mem_cons_self).bind ?_
      intro a hA
      refine
        (ih fun item hMember =>
            hEach item (List.mem_cons_of_mem _ hMember)).bind ?_
      intro all hAll
      exact
        pure fun x hMember =>
          (List.mem_cons.mp hMember).elim (· ▸ hA) (hAll x)

theorem forM
    {γ : Type}
    {items : List γ}
    {f : γ → Build PUnit}
    (hEach : ∀ item ∈ items, Proceeds t reason n (f item)) :
    Proceeds t reason n (items.forM f) := by
  induction items with
  | nil => exact pure trivial
  | cons item items ih =>
      exact
        (hEach item List.mem_cons_self).andThen
          (ih fun item hMember =>
            hEach item (List.mem_cons_of_mem _ hMember))

theorem foldlM
    {γ : Type}
    {items : List γ}
    {f : α → γ → Build α}
    (hEach :
      ∀ a, ∀ item ∈ items, Proceeds t reason n (f a item))
    (a : α) :
    Proceeds t reason n (items.foldlM f a) := by
  induction items generalizing a with
  | nil => exact pure trivial
  | cons item items ih =>
      rw [List.foldlM_cons]
      exact
        (hEach a item List.mem_cons_self).bind fun a' _ =>
          ih
            (fun a item hMember =>
              hEach a item (List.mem_cons_of_mem _ hMember))
            a'

end Safe

------------------------------------------------------------
-- Steps that only add
------------------------------------------------------------

/-
  A step opens new elements at most, inside all others, so it
  keeps whatever is nested.
-/
def Adds
    (t : Tree)
    (reason : Prop)
    (P : α → Prop)
    (x : Build α) : Prop :=
  ∀ nest b a, Tracks t nest b a →
    Ends reason
      (fun r =>
        P r.1 ∧ b.made ≤ r.2.made ∧
          ∃ fresh a',
            r.2.stack = fresh ++ b.stack ∧
              (∀ e ∈ fresh, b.made < e.handle) ∧
              Tracks t (fresh.map (·.handle) ++ nest) r.2 a')
      (x b)

namespace Adds

/- The open elements are nested after that, too. -/
theorem safe
    {x : Build α}
    (hAdds : Adds t reason P x) :
    Safe t reason n P x := by
  intro b a _ hTracks
  refine (hAdds b.nest b a hTracks).imp id ?_
  rintro r ⟨hR, hMade, fresh, a', hStack, _, hTracks'⟩
  refine ⟨hR, hMade, a', ?_⟩
  rwa [Builder.nest, hStack, List.map_append, List.append_assoc]

theorem pure
    {a : α}
    (hA : P a) :
    Adds t reason P (Pure.pure a) :=
  fun _ _ a' hTracks =>
    Ends.ok
      ⟨hA, Nat.le_refl _, [], a', rfl,
        fun _ hMember => (nomatch hMember), hTracks⟩

theorem bind
    {x : Build α}
    {f : α → Build β}
    (hFirst : Adds t reason P x)
    (hNext : ∀ a, P a → Adds t reason Q (f a)) :
    Adds t reason Q (x >>= f) := by
  intro nest b a hTracks
  refine (hFirst nest b a hTracks).bind ?_
  rintro ⟨r, b'⟩
    ⟨hR, hMade, fresh, a', hStack, hFresh, hTracks'⟩
  refine (hNext r hR _ b' a' hTracks').imp id ?_
  rintro ⟨s, b''⟩
    ⟨hS, hMade', more, a'', hStack', hMore, hTracks''⟩
  refine
    ⟨hS, Nat.le_trans hMade hMade', more ++ fresh, a'', ?_, ?_,
      ?_⟩
  · rw [hStack', hStack, List.append_assoc]
  · intro e hMember
    rcases List.mem_append.mp hMember with hNew | hOld
    · exact Nat.lt_of_le_of_lt hMade (hMore e hNew)
    · exact hFresh e hOld
  · rwa [List.map_append, List.append_assoc]

theorem andThen
    {x : Build α}
    {y : Build β}
    (hFirst : Adds t reason P x)
    (hNext : Adds t reason Q y) :
    Adds t reason Q (x >>= fun _ => y) :=
  hFirst.bind fun _ _ => hNext

theorem get
    {f : Builder → Build β}
    (hNext : ∀ b, Adds t reason Q (f b)) :
    Adds t reason Q (MonadState.get >>= f) :=
  fun nest b a hTracks => hNext b nest b a hTracks

theorem ite
    {c : Prop}
    [Decidable c]
    {x y : Build α}
    (hThen : c → Adds t reason P x)
    (hElse : ¬ c → Adds t reason P y) :
    Adds t reason P (if c then x else y) := by
  by_cases hTest : c
  · rw [if_pos hTest]
    exact hThen hTest
  · rw [if_neg hTest]
    exact hElse hTest

/- What does not build changes nothing. -/
theorem lift
    {x : Except Fault α}
    (hEnds : Ends reason P x) :
    Adds t reason P (liftM x) := by
  intro nest b a hTracks
  change Ends _ _ (x >>= fun r => .ok (r, b))
  refine hEnds.bind fun r hR => Ends.ok ?_
  exact
    ⟨hR, Nat.le_refl _, [], a, rfl,
      fun _ hMember => (nomatch hMember), hTracks⟩

end Adds

end Html

end MarkupMetrics
