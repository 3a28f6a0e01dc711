import MarkupMetrics.Html.Page
import MarkupMetrics.Proofs.Html.Lexing
import MarkupMetrics.Proofs.Html.Settling

/-
  This file proves for which pages there is a tree: for every
  page of which no tag is read that cuts off its declaration
  of an encoding, and so for plain text.

  Reading a page and building its tree depend on each other,
  so a tag counts as read where the building so far leads to
  it.  Each step leaves less to read, so a page is always read
  to its end.

  Key definitions include:
    * `Source.Arrives`
    * `Reads`
    * `CutsOff`

  Key theorems include:
    * `Source.Arrives.readPage_eq`
    * `pageCalls_eq_ok_iff`
    * `not_cutsOff_of_plain`
    * `ends_readPage`
    * `Tree.ends_addPage`
    * `Tree.ofPage_cases`
    * `Tree.exists_ofPage`
-/

namespace MarkupMetrics

namespace Html

open Dom MarkupMetrics.Outcome

------------------------------------------------------------
-- Reading
------------------------------------------------------------

/- How the next step goes through the text of a page. -/
def Builder.surroundings
    (b : Builder)
    (around : Surroundings) : Surroundings :=
  { around with
    sections := b.currentIs fun n => n.space != .html }

/- Where reading goes on. -/
def Source.after
    (source : Source)
    (progress : Progress)
    (rest : List Char) : List Char :=
  if progress.anew then source.resume rest else rest

/-
  How far the reading of a page has come: how the rest is
  read, the rest, and what was built.
-/
inductive Source.Arrives
    (source : Source) :
    Surroundings → List Char → Builder → Prop where
  | start : Arrives source {} source.text {}
  | step
      {around : Surroundings}
      {c : Char}
      {rest : List Char}
      {b b' : Builder}
      {progress : Progress}
      (hBefore : Arrives source around (c :: rest) b)
      (hFed :
        (readToken (b.surroundings around)
              (c :: rest)).1.foldlM feed { around } b =
          .ok (progress, b')) :
      Arrives source progress.around
        (source.after progress
          (readToken (b.surroundings around) (c :: rest)).2) b'

/- A tag that is read from a page. -/
def Reads
    (html : String)
    (tag : Tag) : Prop :=
  ∃ around s b,
    (Source.ofText html).Arrives around s b ∧
      .startTag tag ∈ (readToken (b.surroundings around) s).1

/- Some tag that is read cuts off its declaration. -/
def CutsOff
    (html : String) : Prop :=
  ∃ tag, Reads html tag ∧ tag.CutsOff

------------------------------------------------------------
-- To the end
------------------------------------------------------------

theorem Source.suffix_after
    (source : Source)
    (progress : Progress)
    (rest : List Char) :
    source.after progress rest <:+ rest := by
  unfold after
  split
  · exact source.suffix_resume rest
  · exact List.suffix_rfl

/- A step leaves an end of what follows the first character. -/
theorem Source.suffix_step
    (source : Source)
    (progress : Progress)
    (around : Surroundings)
    (c : Char)
    (rest : List Char) :
    source.after progress (readToken around (c :: rest)).2 <:+
      rest :=
  (source.suffix_after progress _).trans (suffix_readToken around)

/- What is left to read is an end of the text. -/
theorem Source.Arrives.suffix
    {source : Source}
    {around : Surroundings}
    {s : List Char}
    {b : Builder}
    (hArrives : source.Arrives around s b) :
    s <:+ source.text := by
  induction hArrives with
  | start => exact List.suffix_rfl
  | step hBefore hFed ih =>
      exact
        ((source.suffix_step _ _ _ _).trans
          (List.suffix_cons _ _)).trans ih

/- One step through a page that is not at its end. -/
theorem readPage_cons
    (source : Source)
    (fuel : Nat)
    (around : Surroundings)
    (c : Char)
    (rest : List Char)
    (b : Builder) :
    readPage source (fuel + 1) around (c :: rest) b =
      ((readToken (b.surroundings around)
            (c :: rest)).1.foldlM feed { around } >>=
        fun progress =>
          readPage source fuel progress.around
            (source.after progress
              (readToken (b.surroundings around)
                (c :: rest)).2)) b := by
  simp only [readPage, get_bind]
  rfl

/- More fuel than there is text to read changes nothing. -/
theorem readPage_congr
    (source : Source)
    {fuel other : Nat}
    {around : Surroundings}
    {s : List Char}
    (hFuel : s.length < fuel)
    (hOther : s.length < other)
    (b : Builder) :
    readPage source fuel around s b =
      readPage source other around s b := by
  induction fuel generalizing other around s b with
  | zero => cases hFuel
  | succ fuel ih =>
      cases other with
      | zero => cases hOther
      | succ other =>
          cases s with
          | nil => rfl
          | cons c rest =>
              rw [List.length_cons, Nat.succ_lt_succ_iff]
                at hFuel hOther
              rw [readPage_cons, readPage_cons]
              cases hFed :
                (readToken (b.surroundings around)
                  (c :: rest)).1.foldlM feed { around } b with
              | error why =>
                  rw [bind_of_error hFed, bind_of_error hFed]
              | ok fed =>
                  rcases fed with ⟨progress, b'⟩
                  have hLess :=
                    (source.suffix_step progress
                      (b.surroundings around) c rest).length_le
                  rw [bind_of_ok hFed, bind_of_ok hFed]
                  exact
                    ih (Nat.lt_of_le_of_lt hLess hFuel)
                      (Nat.lt_of_le_of_lt hLess hOther) b'

/- Reading a page is reading on from wherever it has come. -/
theorem Source.Arrives.readPage_eq
    {source : Source}
    {around : Surroundings}
    {s : List Char}
    {b : Builder}
    (hArrives : source.Arrives around s b) :
    readPage source (source.text.length + 1) {} source.text {} =
      readPage source (s.length + 1) around s b := by
  induction hArrives with
  | start => rfl
  | @step around c rest b b' progress hBefore hFed ih =>
      have hLess :=
        (source.suffix_step progress (b.surroundings around) c
          rest).length_le
      rw [ih, readPage_cons, bind_of_ok hFed]
      exact
        readPage_congr source (Nat.lt_succ_of_le hLess)
          (Nat.lt_succ_self _) b'

/- At the end of the text the end is taken as a token. -/
theorem readPage_nil_eq_ok_iff
    {source : Source}
    {fuel : Nat}
    {around : Surroundings}
    {b b' : Builder} :
    readPage source (fuel + 1) around [] b = .ok ((), b') ↔
      ∃ outcome, Rules.takeToken .eof b = .ok (outcome, b') := by
  have hRead :
      readPage source (fuel + 1) around [] b =
        (Rules.takeToken .eof b >>= fun r => .ok ((), r.2)) :=
    rfl
  rw [hRead, bind_eq_ok_iff]
  constructor
  · rintro ⟨⟨outcome, u⟩, hTake, hSame⟩
    cases hSame
    exact ⟨outcome, hTake⟩
  · rintro ⟨outcome, hTake⟩
    exact ⟨(outcome, b'), hTake, rfl⟩

/- So it comes to the end of the text, if to a result. -/
theorem exists_end_of_readPage
    {source : Source}
    {fuel : Nat}
    {around : Surroundings}
    {s : List Char}
    {b b' : Builder}
    (hFuel : s.length < fuel)
    (hArrives : source.Arrives around s b)
    (hRun : readPage source fuel around s b = .ok ((), b')) :
    ∃ around' u outcome,
      source.Arrives around' [] u ∧
        Rules.takeToken .eof u = .ok (outcome, b') := by
  induction fuel generalizing around s b with
  | zero => cases hFuel
  | succ fuel ih =>
      cases s with
      | nil =>
          rcases readPage_nil_eq_ok_iff.mp hRun with
            ⟨outcome, hTake⟩
          exact ⟨around, b, outcome, hArrives, hTake⟩
      | cons c rest =>
          rw [readPage_cons] at hRun
          cases hFed :
            (readToken (b.surroundings around)
              (c :: rest)).1.foldlM feed { around } b with
          | error why =>
              rw [bind_of_error hFed] at hRun
              cases hRun
          | ok fed =>
              rcases fed with ⟨progress, u⟩
              have hLess :=
                (source.suffix_step progress
                  (b.surroundings around) c rest).length_le
              rw [bind_of_ok hFed] at hRun
              rw [List.length_cons, Nat.succ_lt_succ_iff]
                at hFuel
              exact
                ih (Nat.lt_of_le_of_lt hLess hFuel)
                  (hArrives.step hFed) hRun

/-
  The calls of a page are those that its reading has come to
  at the end of the text.
-/
theorem pageCalls_eq_ok_iff
    {html : String}
    {calls : List (TreeCall Handle)} :
    pageCalls html = .ok calls ↔
      ∃ around u outcome b,
        (Source.ofText html).Arrives around [] u ∧
          Rules.takeToken .eof u = .ok (outcome, b) ∧
          b.calls.reverse = calls := by
  have hCalls :
      pageCalls html =
        (readPage (Source.ofText html)
              ((Source.ofText html).text.length + 1) {}
              (Source.ofText html).text {} >>=
          fun r => .ok r.2.calls.reverse) :=
    rfl
  rw [hCalls, bind_eq_ok_iff]
  constructor
  · rintro ⟨⟨⟨⟩, b⟩, hRun, hSame⟩
    rcases
      exists_end_of_readPage (Nat.lt_succ_self _) .start hRun with
      ⟨around, u, outcome, hArrives, hTake⟩
    exact
      ⟨around, u, outcome, b, hArrives, hTake,
        Except.ok.inj hSame⟩
  · rintro ⟨around, u, outcome, b, hArrives, hTake, rfl⟩
    refine ⟨((), b), ?_, rfl⟩
    rw [hArrives.readPage_eq]
    exact readPage_nil_eq_ok_iff.mpr ⟨outcome, hTake⟩

/- A tag is read where the page has a bracket. -/
theorem Reads.mem_bracket
    {html : String}
    {tag : Tag}
    (hReads : Reads html tag) :
    '<' ∈ html.toList := by
  rcases hReads with ⟨around, s, b, hArrives, hTag⟩
  have hHead := List.mem_of_head? (head?_of_startTag hTag)
  exact
    Source.mem_of_mem_text (hArrives.suffix.subset hHead)
      (by decide)

/- So plain text cuts off nothing. -/
theorem not_cutsOff_of_plain
    {html : String}
    (hPlain : '<' ∉ html.toList) :
    ¬ CutsOff html :=
  fun ⟨_, hReads, _⟩ => hPlain hReads.mem_bracket

------------------------------------------------------------
-- Building
------------------------------------------------------------

variable {t : Tree}
variable {reason : Prop}
variable {n : Nat}

theorem proceeds_feed
    {token : Token}
    (hToken : token.Harmless reason)
    (progress : Progress) :
    Proceeds t reason n (feed progress token) :=
  (Rules.settles_takeToken hToken).bind fun _ _ => Safe.done _

/-
  From wherever the reading has come it goes on to the end of
  the page, or to a tag that cuts off.
-/
theorem ends_readPage
    (html : String)
    (fuel : Nat)
    {around : Surroundings}
    {s : List Char}
    {b : Builder}
    {a : Assembly}
    (hArrives : (Source.ofText html).Arrives around s b)
    (hTracks : Tracks t b.nest b a) :
    Ends (CutsOff html)
      (fun r => ∃ a', Tracks t r.2.nest r.2 a')
      (readPage (Source.ofText html) fuel around s b) := by
  induction fuel generalizing around s b a with
  | zero => exact Ends.ok ⟨a, hTracks⟩
  | succ fuel ih =>
      cases s with
      | nil =>
          have hLast :
              Settles t (CutsOff html) b.made
                (Rules.takeToken .eof) :=
            Rules.settles_takeToken trivial
          exact
            ((hLast.andThen (Safe.done ())) b a (Nat.le_refl _)
              hTracks).imp id fun _ hR => hR.2.2
      | cons c rest =>
          have hHarmless :
              ∀ token ∈
                (readToken (b.surroundings around)
                  (c :: rest)).1,
                token.Harmless (CutsOff html) := by
            intro token hMember
            cases token with
            | startTag tag =>
                exact fun hCut =>
                  ⟨tag, ⟨around, _, b, hArrives, hMember⟩, hCut⟩
            | _ => trivial
          have hFold :
              Proceeds t (CutsOff html) b.made
                ((readToken (b.surroundings around)
                  (c :: rest)).1.foldlM feed { around }) :=
            Safe.foldlM
              (fun progress token hMember =>
                proceeds_feed (hHarmless token hMember) progress)
              _
          rw [readPage_cons]
          rcases hFold b a (Nat.le_refl _) hTracks with
            ⟨⟨progress, b'⟩, hFed, _, _, a', hTracks'⟩ |
              ⟨hFault, hWhy⟩
          · rw [bind_of_ok hFed]
            exact ih (hArrives.step hFed) hTracks'
          · rw [bind_of_error hFault]
            exact Or.inr ⟨rfl, hWhy⟩

/- At the start only the document is there. -/
theorem tracks_start
    (hLinked : t.Linked)
    (hDocument : t.contains 0 = true) :
    Tracks t (Builder.nest {}) {} { tree := t } where
  built := rfl
  count := rfl
  sound :=
    { linked := hLinked
      live := fun h hKnown => by
        rw [Nat.le_zero.mp hKnown]
        exact hDocument }
  stack _ hMember := nomatch hMember
  head _ hHead := nomatch hHead
  known h hMember := (List.mem_singleton.mp hMember).le
  nested := List.pairwise_singleton _ _
  formatting _ hMember := nomatch hMember

end Html

------------------------------------------------------------
-- Trees
------------------------------------------------------------

namespace Dom

namespace Tree

open Html MarkupMetrics.Outcome

/-
  A page is read into a tree with a document to its end, or
  one of its tags cuts off.
-/
theorem ends_addPage
    {t : Tree}
    (hLinked : t.Linked)
    (hDocument : t.contains 0 = true)
    (html : String) :
    Ends (CutsOff html) (fun _ => True) (t.addPage html) := by
  have hRead :=
    ends_readPage html ((Source.ofText html).text.length + 1)
      .start (tracks_start hLinked hDocument)
  have hCalls :
      Ends (CutsOff html)
        (fun calls =>
          ∃ a, calls.foldlM Assembly.take { tree := t } = .ok a)
        (pageCalls html) :=
    hRead.bind fun _ ⟨a, hTracks⟩ =>
      Ends.ok ⟨a, hTracks.built⟩
  refine hCalls.bind ?_
  rintro calls ⟨a, hBuilt⟩
  rw [hBuilt]
  exact Ends.ok trivial

theorem exists_addPage
    {t : Tree}
    (hLinked : t.Linked)
    (hDocument : t.contains 0 = true)
    {html : String}
    (hWhole : ¬ CutsOff html) :
    ∃ t', t.addPage html = .ok t' := by
  rcases ends_addPage hLinked hDocument html with
    ⟨t', hDone, _⟩ | ⟨_, hCuts⟩
  · exact ⟨t', hDone⟩
  · exact (hWhole hCuts).elim

/- A page has a tree, or one of its tags cuts off. -/
theorem ofPage_cases
    (html : String) :
    (∃ page, ofPage html = .ok page) ∨
      ofPage html = .error .cutOffDeclaration ∧
        CutsOff html := by
  rcases ends_addPage linked_empty rfl html with
    ⟨page, hDone, _⟩ | hFault
  · exact Or.inl ⟨page, hDone⟩
  · exact Or.inr hFault

/- A declaration that ends after its first word has none. -/
example :
    ofPage "<meta http-equiv=content-type content=charset>" =
      .error .cutOffDeclaration := by
  decide +kernel

/- So every page of which no tag cuts off has a tree. -/
theorem exists_ofPage
    {html : String}
    (hWhole : ¬ CutsOff html) :
    ∃ page, ofPage html = .ok page :=
  exists_addPage linked_empty rfl hWhole

end Tree

end Dom

end MarkupMetrics
