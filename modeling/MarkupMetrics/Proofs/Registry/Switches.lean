import MarkupMetrics.Proofs.Provider.Heedless
import MarkupMetrics.Proofs.Registry.Binding
import MarkupMetrics.Proofs.Registry.Detaching
import MarkupMetrics.Registry.Providers

/-
  This file proves that what a registry does to a page does
  not depend on its switches.

  A registry with a switch on does what it does without, and
  ends up as it would, with the switch on.  Providers are
  shown whether diagnostics are on, so for that switch this
  takes providers that do not heed it.

  Key definitions include:
    * `Switch`
    * `Config.on`
    * `Registry.on`
    * `Registry.Heedless`

  Key theorems include:
    * `Registry.scan_on`
    * `Registry.add_on`
-/

namespace MarkupMetrics

open Dom

------------------------------------------------------------
-- Switches
------------------------------------------------------------

/- What can be switched on and off while listeners stay. -/
inductive Switch where
  | enabled
  | debug
deriving DecidableEq, Repr

/- A configuration with a switch on. -/
def Config.on
    (c : Config) : Switch → Config
  | .enabled => { c with enabled := true }
  | .debug => { c with debug := true }

variable (w : Switch)

@[simp] theorem Config.on_eventAttribute
    (c : Config) :
    (c.on w).eventAttribute = c.eventAttribute := by
  cases w <;> rfl

@[simp] theorem Config.on_conditionAttribute
    (c : Config) :
    (c.on w).conditionAttribute = c.conditionAttribute := by
  cases w <;> rfl

namespace Registry

/- A registry with a switch on. -/
def on
    (r : Registry)
    (w : Switch) : Registry :=
  { r with config := r.config.on w }

/- A result in which the registry has a switch on. -/
def onThird
    {α : Type}
    (w : Switch)
    (result : Page × Registry × α) : Page × Registry × α :=
  (result.1, result.2.1.on w, result.2.2)

/- A page with a registry that has a switch on. -/
def onSecond
    (w : Switch)
    (result : Page × Registry) : Page × Registry :=
  (result.1, result.2.on w)

/- None of the providers in use heeds diagnostics. -/
def Heedless
    (r : Registry) : Prop :=
  ∀ e ∈ r.entries, e.provider.Heedless

------------------------------------------------------------
-- Scanning
------------------------------------------------------------

variable (r : Registry)

theorem declaration?_on
    (t : Tree)
    (element : NodeId) :
    (r.on w).declaration? t element =
      r.declaration? t element := by
  simp only [declaration?, on, Config.on_eventAttribute,
    Config.on_conditionAttribute]
  rfl

/- What is built may depend on the switch for diagnostics only. -/
theorem buildHandler_on
    {p : Provider}
    (hHeedless : w = .debug → p.Heedless)
    (config : Config)
    (cx : Context)
    (t : Tree)
    (element : NodeId)
    (condition : Option String) :
    p.buildHandler cx (config.on w).debug t element condition =
      p.buildHandler cx config.debug t element condition := by
  cases w with
  | enabled => rfl
  | debug => exact (hHeedless rfl).buildHandler _ _ _ _ _ _

theorem bindEntry_on
    {e : Entry}
    (hHeedless : w = .debug → e.provider.Heedless)
    (d : Declaration)
    (page : Page)
    (n : Nat) :
    (r.on w).bindEntry d page n e = r.bindEntry d page n e := by
  have hBuilt :=
    buildHandler_on w hHeedless r.config (r.context e)
      page.tree d.element d.condition
  unfold bindEntry
  rw [← hBuilt]
  rfl

theorem bindEntries_on
    {entries : List Entry}
    (hHeedless :
      w = .debug → ∀ e ∈ entries, e.provider.Heedless)
    (only : Option String)
    (d : Declaration)
    (page : Page)
    (n : Nat) :
    (r.on w).bindEntries only d page n entries =
      r.bindEntries only d page n entries := by
  induction entries generalizing page n with
  | nil => rfl
  | cons e rest ih =>
      have hFirst :=
        r.bindEntry_on w
          (fun hDebug => hHeedless hDebug e (by simp)) d page n
      have hRest :=
        ih fun hDebug e' hMember =>
          hHeedless hDebug e' (by simp [hMember])
      simp only [bindEntries, hFirst, hRest]

theorem bindElement_on
    {r : Registry}
    (hHeedless : w = .debug → r.Heedless)
    (only : Option String)
    (page : Page)
    (n : Nat)
    (element : NodeId) :
    bindElement only (page, r.on w, n) element =
      onThird w <$> bindElement only (page, r, n) element := by
  simp only [bindElement, declaration?_on, map_bind]
  congr 1
  funext declared
  cases declared with
  | none => simp [onThird]
  | some d =>
      have hEntries : (r.on w).entries = r.entries := rfl
      simp only [map_bind, hEntries,
        r.bindEntries_on w hHeedless]
      rfl

/- The providers stay the same from element to element. -/
theorem heedless_of_bindElement
    {r r' : Registry}
    (hHeedless : r.Heedless)
    {only : Option String}
    {page page' : Page}
    {n n' : Nat}
    {element : NodeId}
    (hRun :
      (bindElement only (page, r, n) element).Gives
        (page', r', n')) :
    r'.Heedless := by
  have hMembers :
      r'.entries.map (·.provider) =
        r.entries.map (·.provider) :=
    providers_of_bindElement hRun
  intro e hMember
  have hThere : e.provider ∈ r.entries.map (·.provider) := by
    rw [← hMembers]
    exact List.mem_map_of_mem hMember
  rcases List.mem_map.mp hThere with ⟨e', hOld, hSame⟩
  exact hSame ▸ hHeedless e' hOld

theorem bindElements_on
    {r : Registry}
    (hHeedless : w = .debug → r.Heedless)
    (only : Option String)
    (elements : List NodeId)
    (page : Page)
    (n : Nat) :
    elements.foldlM (bindElement only) (page, r.on w, n) =
      onThird w <$>
        elements.foldlM (bindElement only) (page, r, n) := by
  induction elements generalizing page r n with
  | nil => simp [onThird]
  | cons x rest ih =>
      simp only [List.foldlM_cons, bindElement_on w hHeedless,
        bind_map_left, map_bind]
      apply Trace.bind_congr
      rintro ⟨page', r', n'⟩ hRun
      exact
        ih
          (fun hDebug =>
            heedless_of_bindElement (hHeedless hDebug) hRun)
          page' n'

/- A scan does not depend on the switches. -/
theorem scan_on
    {r : Registry}
    (hHeedless : w = .debug → r.Heedless)
    (page : Page)
    (root : Option NodeId)
    (only : Option String) :
    (r.on w).scan page root only =
      onThird w <$> r.scan page root only := by
  have hSelector : (r.on w).eventSelector = r.eventSelector := by
    simp [eventSelector, on]
  simp only [scan, hSelector, bindElements_on w hHeedless,
    map_bind]

------------------------------------------------------------
-- Providers
------------------------------------------------------------

theorem vacate_on
    (page : Page)
    (name : String) :
    (r.on w).vacate page name =
      onSecond w <$> r.vacate page name := by
  have hThere : (r.on w).contains name = r.contains name := rfl
  unfold vacate
  rw [hThere]
  cases r.contains name with
  | true => simp only [if_true, map_bind]; rfl
  | false => rfl

/- An entry more is the same entry more with a switch on. -/
theorem enroll_on
    (e : Entry) :
    ({ r.on w with entries := (r.on w).entries ++ [e] } :
        Registry) =
      ({ r with entries := r.entries ++ [e] } : Registry).on w :=
  rfl

/- A registry from which something is dropped is as heedless. -/
theorem heedless_of_vacate
    {r r' : Registry}
    (hHeedless : r.Heedless)
    {page page' : Page}
    {name : String}
    (hRun : (r.vacate page name).Gives (page', r')) :
    r'.Heedless := by
  have hRegistry : r' = r.drop name :=
    congrArg Prod.snd (vacate_gives hRun)
  intro e hMember
  rw [hRegistry] at hMember
  exact hHeedless e (List.mem_of_mem_filter hMember)

/- So neither does adding a provider. -/
theorem add_on
    {r : Registry}
    {provider : Provider}
    (hHeedless :
      w = .debug → r.Heedless ∧ provider.Heedless)
    (page : Page)
    (number : Nat) :
    (r.on w).add page provider number =
      onThird w <$> r.add page provider number := by
  have hNote : (r.on w).note = r.note := rfl
  simp only [add, hNote, vacate_on, map_bind, bind_map_left]
  congr 1
  funext _
  apply Trace.bind_congr
  rintro ⟨page', r'⟩ hRun
  simp only [onSecond, enroll_on]
  apply scan_on
  intro hDebug e hMember
  rcases hHeedless hDebug with ⟨hOld, hNew⟩
  rw [List.mem_append, List.mem_singleton] at hMember
  rcases hMember with hThere | rfl
  · exact heedless_of_vacate hOld hRun e hThere
  · exact hNew

theorem remove_on
    (page : Page)
    (name : String) :
    (r.on w).remove page name =
      onThird w <$> r.remove page name := by
  have hThere : (r.on w).contains name = r.contains name := rfl
  unfold remove
  rw [hThere]
  cases r.contains name with
  | true => simp only [if_true, map_bind]; rfl
  | false =>
      simp only [Bool.false_eq_true, if_false, map_bind]
      rfl

theorem push_on
    (name : String)
    (payload : Payload) :
    (r.on w).push name payload = r.push name payload :=
  rfl

end Registry

end MarkupMetrics
