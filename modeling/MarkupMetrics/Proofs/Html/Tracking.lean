import MarkupMetrics.Html.Formatting
import MarkupMetrics.Proofs.Html.Assembling

/-
  This file proves which calls of a builder can be carried
  out: those that name known handles and keep the open
  elements nested.

  A builder is tracked by the assembly that its calls have
  come to.  Beside it stands a list of handles whose nodes are
  nested.  These are mostly the open elements and the
  document.

  Key definitions include:
    * `Builder.nest`
    * `Place.spot`
    * `Tracks`

  Key theorems include:
    * `Tracks.sent`
    * `Tracks.plant`
    * `Tracks.write`
    * `Tracks.addAttributes`
    * `Tracks.unlink`
-/

namespace MarkupMetrics

namespace Html

open Dom Dom.Tree MarkupMetrics.Outcome

------------------------------------------------------------
-- Places
------------------------------------------------------------

/- The open elements, the inner ones first, and the document. -/
def Builder.nest
    (b : Builder) : List Handle :=
  b.stack.map (·.handle) ++ [documentHandle]

namespace Place

/- The call that puts content into a place. -/
def call
    (content : Content Handle) : Place → TreeCall Handle
  | .endOf parent => .append parent content
  | .beforeTable table around =>
      .appendBased table around content

/- The place among the nodes that handles stand for. -/
def spot
    (f : Handle → NodeId) : Place → Spot
  | .endOf parent => .endOf (f parent)
  | .beforeTable table around => .based (f table) (f around)

/- All handles that tell a place have a property. -/
def All
    (P : Handle → Prop) : Place → Prop
  | .endOf parent => P parent
  | .beforeTable table around => P table ∧ P around

variable {P Q : Handle → Prop}
variable {f g : Handle → NodeId}
variable {place : Place}

theorem All.imp
    (hAll : place.All P)
    (hEach : ∀ h, P h → Q h) :
    place.All Q := by
  cases place with
  | endOf parent => exact hEach _ hAll
  | beforeTable table around =>
      exact ⟨hEach _ hAll.1, hEach _ hAll.2⟩

theorem spot_congr
    (hAll : place.All P)
    (hSame : ∀ h, P h → f h = g h) :
    place.spot f = place.spot g := by
  cases place with
  | endOf parent => rw [spot, spot, hSame _ hAll]
  | beforeTable table around =>
      rw [spot, spot, hSame _ hAll.1, hSame _ hAll.2]

theorem map_call_node
    (f : Handle → NodeId)
    (h : Handle)
    (place : Place) :
    (place.call (.node h)).map f =
      (place.spot f).nodeCall (f h) := by
  cases place <;> rfl

theorem map_call_text
    (f : Handle → NodeId)
    (text : String)
    (place : Place) :
    (place.call (.text text)).map f =
      (place.spot f).call text := by
  cases place <;> rfl

theorem known_call
    {n : Nat}
    {content : Content Handle}
    (hAll : place.All (· ≤ n))
    (hContent : content.Known n) :
    (place.call content).Known n := by
  cases place with
  | endOf parent => exact ⟨hAll, hContent⟩
  | beforeTable table around =>
      exact ⟨hAll.1, hAll.2, hContent⟩

/- A place is there if the nodes that tell it are. -/
theorem there_spot
    {t : Tree}
    (hAll : place.All fun h => t.contains (f h) = true) :
    (place.spot f).There t := by
  cases place with
  | endOf parent => exact hAll
  | beforeTable table around => exact ⟨hAll.1, fun _ => hAll.2⟩

end Place

theorem insertAt_eq
    (content : Content Handle)
    (place : Place) :
    insertAt content place = emit (place.call content) := by
  cases place <;> rfl

------------------------------------------------------------
-- Formatting
------------------------------------------------------------

/- Elements before which and in which nothing is put aside. -/
def PassedBy
    (n : QualName) : Prop :=
  isHtml "template" n = false ∧ isHtml "table" n = false

instance (n : QualName) : Decidable (PassedBy n) :=
  inferInstanceAs (Decidable (_ ∧ _))

/- The element of an entry is one of these. -/
def FormatEntry.Plain : FormatEntry → Prop
  | .marker => True
  | .element _ tag => PassedBy (.html tag.name)

------------------------------------------------------------
-- Tracking
------------------------------------------------------------

/-
  The calls of a builder have been carried out on a tree.  All
  handles that it may name again are known, the nodes of some
  are nested, and formatting makes no tables.
-/
structure Tracks
    (t : Tree)
    (nest : List Handle)
    (b : Builder)
    (a : Assembly) : Prop where
  built :
    b.calls.reverse.foldlM Assembly.take { tree := t } = .ok a
  count : a.made.size = b.made
  sound : a.Sound
  stack : ∀ e ∈ b.stack, e.handle ≤ b.made
  head : ∀ h, b.head = some h → h ≤ b.made
  known : ∀ h ∈ nest, h ≤ b.made
  nested : a.tree.Nested (nest.map a.node)
  formatting : ∀ entry ∈ b.formatting, entry.Plain

namespace Tracks

variable {t : Tree}
variable {nest nest' : List Handle}
variable {b : Builder}
variable {a : Assembly}
variable {call : TreeCall Handle}

/- A known handle stands for a node. -/
theorem live
    (hTracks : Tracks t nest b a)
    {h : Handle}
    (hKnown : h ≤ b.made) :
    a.tree.contains (a.node h) = true :=
  hTracks.sound.live h (hTracks.count ▸ hKnown)

theorem nest_live
    (hTracks : Tracks t nest b a) :
    ∀ x ∈ nest.map a.node, a.tree.contains x = true := by
  intro x hMember
  rcases List.mem_map.mp hMember with ⟨h, hNest, rfl⟩
  exact hTracks.live (hTracks.known h hNest)

/- A place that known handles tell is there. -/
theorem exists_opens
    (hTracks : Tracks t nest b a)
    {place : Place}
    (hPlace : place.All (· ≤ b.made)) :
    ∃ owner front back,
      (place.spot a.node).Opens a.tree owner front back :=
  Spot.exists_opens hTracks.sound.linked
    (Place.there_spot
      (hPlace.imp fun _ hKnown => hTracks.live hKnown))

/- Another call is carried out after the others. -/
theorem foldlM_snoc
    {a' : Assembly}
    (hTracks : Tracks t nest b a)
    (hTake : a.take call = .ok a') :
    (call :: b.calls).reverse.foldlM Assembly.take
        { tree := t } =
      .ok a' := by
  rw [List.reverse_cons, List.foldlM_append, hTracks.built,
    ok_bind, List.foldlM_cons, hTake, ok_bind]
  rfl

/-
  A call that the tree admits is carried out.  The nest may
  be another one then.
-/
theorem sent
    {t' : Tree}
    (hTracks : Tracks t nest b a)
    (hKnown : call.Known b.made)
    (hAdmits : a.tree.admits (call.map a.node) = true)
    (hRun : (call.map a.node).run a.tree = .ok (t', none))
    (hNest : ∀ h ∈ nest', h ≤ b.made)
    (hNested : t'.Nested (nest'.map a.node)) :
    Tracks t nest' { b with calls := call :: b.calls }
      { a with tree := t' } where
  built :=
    hTracks.foldlM_snoc
      (Assembly.take_of_run (hTracks.count ▸ hKnown) hAdmits
        hRun)
  count := hTracks.count
  sound :=
    { linked :=
        TreeCall.linked_run hTracks.sound.linked
          (TreeCall.permitted_of_admits hTracks.sound.linked
            hAdmits)
          hRun
      live := fun h hKnown =>
        (TreeCall.touched_of_run hRun).keeps _
          (hTracks.sound.live h hKnown) }
  stack := hTracks.stack
  head := hTracks.head
  known := hNest
  nested := hNested
  formatting := hTracks.formatting

/- Known handles stand for the same nodes after another. -/
theorem map_node_made
    (hTracks : Tracks t nest b a)
    (t' : Tree)
    (id : NodeId) :
    nest.map (Assembly.node ⟨t', a.made.push id⟩) =
      nest.map a.node :=
  List.map_congr_left fun h hMember =>
    Assembly.node_push a t' id
      (hTracks.count ▸ hTracks.known h hMember)

/- A call that makes a node is carried out. -/
theorem made
    {data : NodeData}
    (hTracks : Tracks t nest b a)
    (hData : call.data? = some data) :
    Tracks t nest
      { b with calls := call :: b.calls, made := b.made + 1 }
      ⟨(a.tree.create data).1,
        a.made.push (a.tree.create data).2⟩ where
  built := hTracks.foldlM_snoc (Assembly.take_of_data? hData)
  count := by rw [Array.size_push, hTracks.count]
  sound := hTracks.sound.made data
  stack e hMember := Nat.le_succ_of_le (hTracks.stack e hMember)
  head h hHead := Nat.le_succ_of_le (hTracks.head h hHead)
  known h hMember := Nat.le_succ_of_le (hTracks.known h hMember)
  nested := by
    rw [hTracks.map_node_made]
    exact
      (hTracks.sound.linked.grown_create data).nested
        hTracks.sound.linked hTracks.nested hTracks.nest_live
  formatting := hTracks.formatting

/- The next handle stands for the node that was made. -/
theorem node_made
    (hTracks : Tracks t nest b a)
    (t' : Tree)
    (id : NodeId) :
    Assembly.node ⟨t', a.made.push id⟩ (b.made + 1) = id := by
  rw [← hTracks.count]
  exact Assembly.node_pushed a t' id

/-
  A node is made and put into a place.  It is nested in all
  others, as it has no content yet.
-/
theorem plant
    {data : NodeData}
    {place : Place}
    (hTracks : Tracks t nest b a)
    (hData : call.data? = some data)
    (hPlace : place.All (· ≤ b.made)) :
    ∃ a',
      Tracks t ((b.made + 1) :: nest)
        { b with
          calls :=
            place.call (.node (b.made + 1)) :: call :: b.calls
          made := b.made + 1 } a' := by
  have hLinked := hTracks.sound.linked
  have hFree := hLinked.free
  rcases hTracks.exists_opens hPlace with
    ⟨owner, front, back, hOpens⟩
  rcases contains_created hFree data with ⟨hNew, hThere⟩
  have hGrown := hLinked.grown_create data
  have hRoot :
      (a.tree.create data).1.parent? (a.tree.create data).2 =
        none := by
    rw [parent?_create hFree]
    exact parent?_eq_none hNew
  have hApart := hGrown.apart hLinked hOpens.live hNew
  have hStill := hOpens.create hLinked data
  have hMade := hTracks.made hData
  rcases
    Spot.exists_puts hMade.sound.linked hStill hThere hRoot
      hApart with
    ⟨t', hRun, hLinked', hKeeps, hPuts⟩
  have hAll := hGrown.puts hPuts hLinked' hKeeps
  -- the place and the new node, by the handles they have then
  have hCall :
      (place.call (.node (b.made + 1))).map
          (Assembly.node
            ⟨(a.tree.create data).1,
              a.made.push (a.tree.create data).2⟩) =
        (place.spot a.node).nodeCall (a.tree.create data).2 := by
    rw [Place.map_call_node, hTracks.node_made]
    congr 1
    exact
      Place.spot_congr hPlace fun h hKnown =>
        Assembly.node_push a _ _ (hTracks.count ▸ hKnown)
  refine
    ⟨⟨t', a.made.push (a.tree.create data).2⟩,
      hMade.sent ?_ ?_ ?_ ?_ ?_⟩
  · exact
      Place.known_call
        (hPlace.imp fun _ hKnown => Nat.le_succ_of_le hKnown)
        (Nat.le_refl _)
  · rw [hCall]
    exact Spot.admits_nodeCall hMade.sound.linked hStill hApart
  · rw [hCall]
    exact hRun
  · intro h hMember
    rcases List.mem_cons.mp hMember with rfl | hOld
    · exact Nat.le_refl _
    · exact hMade.known h hOld
  · have hNested :
        t'.Nested
          ([] ++ (a.tree.create data).2 :: nest.map a.node) :=
      hAll.nested_insert hLinked hTracks.nested
        hTracks.nest_live hNew (fun _ hMember => nomatch hMember)
    rw [List.map_cons, hTracks.node_made, hTracks.map_node_made]
    exact hNested

/- Text can be put into any place. -/
theorem write
    {place : Place}
    (hTracks : Tracks t nest b a)
    (text : String)
    (hPlace : place.All (· ≤ b.made)) :
    ∃ a',
      Tracks t nest
        { b with calls := place.call (.text text) :: b.calls }
        a' := by
  have hLinked := hTracks.sound.linked
  rcases hTracks.exists_opens hPlace with
    ⟨owner, front, back, hOpens⟩
  rcases Spot.exists_writing hLinked hOpens text with
    ⟨t', hRun, hGrown⟩
  rw [← Place.map_call_text] at hRun
  refine
    ⟨{ a with tree := t' },
      hTracks.sent (Place.known_call hPlace trivial) ?_ hRun
        hTracks.known
        (hGrown.nested hLinked hTracks.nested hTracks.nest_live)⟩
  cases place <;> rfl

/- Attributes can be added to any node. -/
theorem addAttributes
    {h : Handle}
    (hTracks : Tracks t nest b a)
    (hKnown : h ≤ b.made)
    (attrs : List Attribute) :
    ∃ a',
      Tracks t nest
        { b with calls := .addAttributes h attrs :: b.calls }
        a' := by
  rcases exists_addAttributes_of_live (hTracks.live hKnown) attrs
    with ⟨t', hAdd, hSame⟩
  refine
    ⟨{ a with tree := t' },
      hTracks.sent hKnown rfl ?_ hTracks.known
        (hTracks.nested.mono fun c _ hParent =>
          (hSame.parent c).symm.trans hParent)⟩
  rw [TreeCall.map, TreeCall.run, hAdd]
  rfl

/- Any node can be taken out of its place. -/
theorem unlink
    {h : Handle}
    (hTracks : Tracks t nest b a)
    (hKnown : h ≤ b.made) :
    Tracks t nest
      { b with calls := .unlink h :: b.calls }
      { a with tree := a.tree.unlink (a.node h) } :=
  hTracks.sent hKnown rfl rfl hTracks.known
    (hTracks.nested.mono
      (cut_of_unlink hTracks.sound.linked _).parent_of)

------------------------------------------------------------
-- Moving nodes
------------------------------------------------------------

/- Any known handles may stand beside, if they are nested. -/
theorem beside
    (hTracks : Tracks t nest b a)
    (hNest : ∀ h ∈ nest', h ≤ b.made)
    (hNested : a.tree.Nested (nest'.map a.node)) :
    Tracks t nest' b a :=
  { hTracks with known := hNest, nested := hNested }

/- Fewer handles may stand beside. -/
theorem fewer
    (hTracks : Tracks t nest b a)
    (hNest : nest'.Sublist nest) :
    Tracks t nest' b a :=
  hTracks.beside
    (fun h hMember => hTracks.known h (hNest.subset hMember))
    (hTracks.nested.sublist (hNest.map a.node))

/- Other elements may be open, if they stand beside. -/
theorem restack
    (hTracks : Tracks t nest b a)
    (stack : List OpenElement)
    (hStack : (stack.map (·.handle)).Sublist nest) :
    Tracks t nest { b with stack } a :=
  { hTracks with
    stack := fun e hMember =>
      hTracks.known e.handle
        (hStack.subset (List.mem_map_of_mem hMember)) }

/-
  The owner of a place that outer nodes tell is not within an
  inner node.
-/
theorem owner_apart
    {front back : List Handle}
    {place : Place}
    {owner : NodeId}
    {before after : List NodeId}
    (hTracks : Tracks t (front ++ back) b a)
    (hPlace : place.All (· ∈ back))
    (hOpens :
      (place.spot a.node).Opens a.tree owner before after) :
    ∀ x ∈ front.map a.node, ¬ a.tree.Within owner x := by
  have hNested := hTracks.nested
  rw [List.map_append] at hNested
  have hApart :
      ∀ x ∈ front.map a.node, ∀ h ∈ back,
        ¬ a.tree.Within (a.node h) x :=
    fun x hInner h hOuter =>
      hNested.apart hInner (List.mem_map_of_mem hOuter)
  intro x hInner hWithin
  have hAims := hOpens.aims
  cases place with
  | endOf parent =>
      rw [hAims.1] at hWithin
      exact hApart x hInner parent hPlace hWithin
  | beforeTable table around =>
      rcases hAims with hFirst | ⟨_, _, hOwner, _⟩
      · have hMember : a.node table ∈ a.tree.childrenOf owner := by
          rw [hOpens.children]
          exact
            List.mem_append_right _ (List.mem_of_head? hFirst)
        have hParent :=
          (hTracks.sound.linked.listed _ owner).mp hMember
        exact
          hApart x hInner table hPlace.1
            (within_of_parent? hParent hWithin)
      · rw [hOwner] at hWithin
        exact hApart x hInner around hPlace.2 hWithin

/- An inner node goes into a place that outer nodes tell. -/
theorem moved
    {front back : List Handle}
    {place : Place}
    {inner : Handle}
    (hTracks : Tracks t (front ++ back) b a)
    (hInner : inner ∈ front)
    (hRoot : a.tree.parent? (a.node inner) = none)
    (hPlace : place.All (· ∈ back)) :
    ∃ a',
      Tracks t (front ++ back)
        { b with calls := place.call (.node inner) :: b.calls }
        a' := by
  have hLinked := hTracks.sound.linked
  have hKnown : inner ≤ b.made :=
    hTracks.known inner (List.mem_append_left back hInner)
  have hAll : place.All (· ≤ b.made) :=
    hPlace.imp fun h hMember =>
      hTracks.known h (List.mem_append_right front hMember)
  rcases hTracks.exists_opens hAll with
    ⟨owner, before, after, hOpens⟩
  have hNode := List.mem_map_of_mem (f := a.node) hInner
  have hApart := hTracks.owner_apart hPlace hOpens
  rcases
    Spot.exists_puts hLinked hOpens (hTracks.live hKnown) hRoot
      (hApart _ hNode) with
    ⟨t', hRun, _, _, hPuts⟩
  refine
    ⟨{ a with tree := t' },
      hTracks.sent (Place.known_call hAll hKnown) ?_ ?_
        hTracks.known ?_⟩
  · rw [Place.map_call_node]
    exact Spot.admits_nodeCall hLinked hOpens (hApart _ hNode)
  · rw [Place.map_call_node]
    exact hRun
  · have hNested := hTracks.nested
    rw [List.map_append] at hNested ⊢
    exact hNested.put hPuts hNode hApart

/- Whatever place an inner node had before. -/
theorem transferred
    {front back : List Handle}
    {place : Place}
    {inner : Handle}
    (hTracks : Tracks t (front ++ back) b a)
    (hInner : inner ∈ front)
    (hPlace : place.All (· ∈ back)) :
    ∃ a',
      Tracks t (front ++ back)
        { b with
          calls :=
            place.call (.node inner) :: .unlink inner :: b.calls }
        a' := by
  have hKnown : inner ≤ b.made :=
    hTracks.known inner (List.mem_append_left back hInner)
  have hCut :=
    cut_of_unlink hTracks.sound.linked (a.node inner)
  have hRoot :
      (a.tree.unlink (a.node inner)).parent? (a.node inner) =
        none := by
    rw [hCut.parent, if_pos (List.mem_singleton_self _)]
  exact (hTracks.unlink hKnown).moved hInner hRoot hPlace

/- A node that was just made fits in anywhere. -/
theorem made_between
    {front back : List Handle}
    {data : NodeData}
    (hTracks : Tracks t (front ++ back) b a)
    (hData : call.data? = some data) :
    ∃ a',
      Tracks t (front ++ (b.made + 1) :: back)
          { b with calls := call :: b.calls, made := b.made + 1 }
          a' ∧
        a'.tree.parent? (a'.node (b.made + 1)) = none := by
  have hLinked := hTracks.sound.linked
  have hMade := hTracks.made hData
  rcases contains_created hLinked.free data with ⟨hNew, _⟩
  have hRoot :
      (a.tree.create data).1.parent? (a.tree.create data).2 =
        none := by
    rw [parent?_create hLinked.free]
    exact parent?_eq_none hNew
  refine ⟨_, hMade.beside ?_ ?_, ?_⟩
  · intro h hMember
    rcases List.mem_append.mp hMember with hInner | hRest
    · exact hMade.known h (List.mem_append_left back hInner)
    · rcases List.mem_cons.mp hRest with rfl | hOuter
      · exact Nat.le_refl _
      · exact hMade.known h (List.mem_append_right front hOuter)
  · have hNested := hTracks.nested
    have hLive := hTracks.nest_live
    have hSame := hTracks.map_node_made (a.tree.create data).1
      (a.tree.create data).2
    rw [List.map_append, List.map_append] at hSame
    rw [List.map_append] at hNested hLive
    rw [List.map_append, List.map_cons, hTracks.node_made,
      List.append_inj_left hSame (by simp),
      List.append_inj_right hSame (by simp)]
    refine
      (hLinked.grown_create data).nested_insert hLinked hNested
        hLive hNew ?_
    intro y hInner hWithin
    have hThere := hLive y (List.mem_append_left _ hInner)
    rw [← eq_of_within_root hRoot hWithin, hNew] at hThere
    cases hThere
  · rw [hTracks.node_made]
    exact hRoot

end Tracks

end Html

end MarkupMetrics
