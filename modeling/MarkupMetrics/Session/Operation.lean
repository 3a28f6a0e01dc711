import MarkupMetrics.Document.Dispatch
import MarkupMetrics.Session.Basic

/-
  This file defines the operations of a session and what they
  answer.

  Key definitions include:
    * `Operation`
    * `Answer`
    * `Surroundings`
    * `Session.perform`
    * `Session.step`
-/

namespace MarkupMetrics

open Dom

------------------------------------------------------------
-- Operations
------------------------------------------------------------

/- What can be done with a document. -/
inductive PageOperation where
  | createElement (tag : String) (attrs : List (String × String))
  | createText (content : String)
  | createComment
  | append (parent : NodeId) (children : List NodeId)
  | insertBefore (anchor : NodeId) (nodes : List NodeId)
  | reparent (source target : NodeId)
  | remove (node : NodeId)
  | setAttribute (node : NodeId) (name value : String)
  | removeAttribute (node : NodeId) (name : String)
  | addAttributes (node : NodeId) (attrs : List Attribute)
  | appendText (node : NodeId) (text : String)
  | appendPage (node : NodeId) (html : String)
  | addPage (html : String)
  | «matches» (node : NodeId) (selector : String)
  | query (selector : String)
  | queryAll (selector : String)
  | find (node : NodeId) (selector : String)
  | bind (node : NodeId) (event label : String)
  | delegate (node : NodeId) (selector event label : String)
  | unbind (node : NodeId) (event : String) (listener : Nat)
  | undelegate (node : NodeId) (selector event : String)
      (listener : Nat)
  | dispatch (node : NodeId) (event : String)

/- What can be done with a registry. -/
inductive RegistryOperation where
  | addProvider (provider : Provider) (hasTransport : Bool)
  | removeProvider (name : String)
  | clear
  | teardown
  | replace (config : Config)
  | parse (root : Option NodeId)
  | parseFor (name : String) (root : Option NodeId)
  | unbind (name : Option String)
  | push (name : String) (payload : Payload)
  | setEnabled (enabled : Bool)
  | setDebug (debug : Bool)
  | setTransport (provider : Nat) (hasTransport : Bool)

/- What can be asked in the small languages. -/
inductive LanguageOperation where
  | readExtractor (value : String)
  | readCondition (value : String)
  | extract (node : Option NodeId) (value : String)
  | evaluate (node : NodeId) (condition : Condition)
deriving DecidableEq, Repr

/-
  Who uses the small languages outside of any registry: the
  name that notes are shown under, and whether they are.
-/
structure Caller where
  scope : String
  debug : Bool
deriving DecidableEq, Repr

/- An operation of a session. -/
inductive Operation where
  | page (operation : PageOperation)
  | registry (operation : RegistryOperation)
  | language (caller : Caller) (operation : LanguageOperation)

/- What an operation answers. -/
inductive Answer where
  | nothing
  | count (n : Nat)
  | truth (value : Bool)
  | nodes (ids : List NodeId)
  | node? (id : Option NodeId)
  | value? (value : Option String)
  | extractor? (value : Option Extractor)
  | condition? (value : Option Condition)
  | notText
deriving DecidableEq, Repr

------------------------------------------------------------
-- Documents
------------------------------------------------------------

/-
  What an operation on a document meets around it: for which
  registries diagnostics are on, and what the parser finds
  wrong with the text of a page.
-/
structure Surroundings where
  debug : Nat → Bool
  complaints : String → List String

/- Note what the parser finds wrong with a page. -/
def Surroundings.complain
    (around : Surroundings)
    (html : String) : Trace Unit :=
  (around.complaints html).forM fun message =>
    Trace.note .page .debug ("HTML parse error: " ++ message)

namespace PageOperation

/- Add a detached node. -/
def create
    (page : Page)
    (data : NodeData) : Trace (Page × Answer) :=
  let (page, id) := page.create data
  return (page, .count id)

/- Change the tree. -/
def edit
    (page : Page)
    (f : Tree → Except Fault Tree) : Trace (Page × Answer) := do
  return (← page.editTree f, .nothing)

/- Add text at the end of a text node. -/
def addText
    (page : Page)
    (node : NodeId)
    (text : String) : Trace (Page × Answer) := do
  match ← page.tree.appendText? node text with
  | some tree => return ({ page with tree }, .nothing)
  | none => return (page, .notText)

/- Carry out an operation on a document. -/
def perform
    (around : Surroundings)
    (page : Page) : PageOperation → Trace (Page × Answer)
  | .createElement tag attrs =>
      create page <| .element
        ⟨.html tag, attrs.map fun a => .plain a.1 a.2⟩
  | .createText content => create page (.text content)
  | .createComment => create page .comment
  | .append parent children =>
      edit page (·.append parent children)
  | .insertBefore anchor nodes =>
      edit page (·.insertBefore anchor nodes)
  | .reparent source target =>
      edit page (·.reparent source target)
  | .remove node => do return (← page.remove node, .nothing)
  | .setAttribute node name value =>
      edit page (·.setAttribute node name value)
  | .removeAttribute node name =>
      edit page (·.removeAttribute node name)
  | .addAttributes node attrs =>
      edit page (·.addAttributes node attrs)
  | .appendText node text => addText page node text
  | .appendPage node html => do
      let (page, ids) ← page.appendPage node html
      around.complain html
      return (page, .nodes ids)
  | .addPage html => do
      let page ← page.addPage html
      around.complain html
      return (page, .nothing)
  | .matches node selector => do
      return (page, .truth (← page.tree.matches node selector))
  | .query selector => do
      return (page, .node? (← page.tree.query? selector))
  | .queryAll selector => do
      return (page, .nodes (← page.tree.queryAll selector))
  | .find node selector => do
      return (page, .nodes (← page.tree.find node selector))
  | .bind node event label => do
      let (page, id) ← page.bind node event (.recorder label)
      return (page, .count id)
  | .delegate node selector event label => do
      let (page, id) ←
        page.delegate node selector event (.recorder label)
      return (page, .count id)
  | .unbind node event listener =>
      let page := page.unbind node event listener
      return (page, .count (page.listenerCount node))
  | .undelegate node selector event listener =>
      let page := page.undelegate node selector event listener
      return (page, .count (page.listenerCount node))
  | .dispatch node event => do
      let n ←
        Document.dispatch (Handler.run around.debug) page node
          event
      return (page, .count n)

end PageOperation

------------------------------------------------------------
-- Registries
------------------------------------------------------------

namespace Session

/- Put another registry in the place of the present one. -/
def retire
    (s : Session)
    (config : Config) : Session :=
  { s with
    registry := { number := s.registry.number + 1, config }
    initial := config
    retired := s.retired ++ [s.registry.config] }

/- Change the page and the registry. -/
def withPage
    (s : Session)
    (page : Page)
    (registry : Registry) : Session :=
  { s with page, registry }

end Session

namespace RegistryOperation

/- Carry out an operation on a registry. -/
def perform
    (s : Session) :
    RegistryOperation → Trace (Session × Answer)
  | .addProvider provider hasTransport => do
      let number := s.providers.length
      let (page, r, n) ← s.registry.add s.page provider number
      let s := s.withPage page r
      let providers := s.providers ++ [{ hasTransport }]
      return ({ s with providers }, .count n)
  | .removeProvider name => do
      let (page, r, found) ← s.registry.remove s.page name
      return (s.withPage page r, .truth found)
  | .clear =>
      let (page, r) := s.registry.clear s.page
      return (s.withPage page r, .nothing)
  | .teardown =>
      let (page, r) := s.registry.clear s.page
      return ((s.withPage page r).retire s.initial, .nothing)
  | .replace config => return (s.retire config, .nothing)
  | .parse root => do
      let (page, r, n) ← s.registry.scan s.page root none
      return (s.withPage page r, .count n)
  | .parseFor name root => do
      let (page, r, n) ←
        s.registry.scan s.page root (some name)
      return (s.withPage page r, .count n)
  | .unbind name =>
      let (page, r) := s.registry.unbind s.page name
      return (s.withPage page r, .nothing)
  | .push name payload => do
      s.registry.push name payload
      return (s, .nothing)
  | .setEnabled enabled =>
      let registry := s.registry.setEnabled enabled
      return ({ s with registry }, .nothing)
  | .setDebug debug =>
      let registry := s.registry.setDebug debug
      return ({ s with registry }, .nothing)
  | .setTransport provider hasTransport =>
      let providers :=
        s.providers.modify provider fun p =>
          { p with hasTransport }
      return ({ s with providers }, .nothing)

end RegistryOperation

------------------------------------------------------------
-- Small languages
------------------------------------------------------------

/- Answer a question in one of the small languages. -/
def LanguageOperation.perform
    (log : Origin)
    (t : Tree) : LanguageOperation → Trace Answer
  | .readExtractor value => do
      return .extractor? (← Extractor.read? log value)
  | .readCondition value => do
      return .condition? (← Condition.read? log value)
  | .extract node value => do
      return .value? (← extractValue log t node value)
  | .evaluate node condition => do
      return .truth (← condition.evaluate log t node)

------------------------------------------------------------
-- Steps
------------------------------------------------------------

namespace Session

/- What is around the page of a session. -/
def surroundings
    (s : Session) : Surroundings where
  debug := s.diagnoses
  complaints := s.complaints

/- Carry out an operation. -/
def perform
    (s : Session) : Operation → Trace (Session × Answer)
  | .page operation => do
      let (page, answer) ←
        operation.perform s.surroundings s.page
      return ({ s with page }, answer)
  | .registry operation => operation.perform s
  | .language caller operation => do
      let log := Origin.caller caller.scope
      return (s, ← operation.perform log s.page.tree)

/- Whether the notes of a caller show. -/
def callerDebug : Operation → Bool
  | .language caller _ => caller.debug
  | _ => true

/- Carry out an operation, and settle what it did. -/
def step
    (s : Session)
    (operation : Operation) :
    Except Fault (Session × Answer × List Report) :=
  match s.perform operation with
  | .fault why => .error why
  | .done (s, answer) effects =>
      let (s, reports) := s.settle (callerDebug operation) effects
      .ok (s, answer, reports)

end Session

end MarkupMetrics
