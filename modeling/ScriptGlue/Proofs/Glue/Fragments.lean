import ScriptGlue.Glue.Binding
import ScriptGlue.Glue.Handler
import ScriptGlue.Glue.Typing
import ScriptGlue.Proofs.Code.Rendering
import ScriptGlue.Proofs.Custom.Registry
import ScriptGlue.Proofs.Glue.Raising

/-!
# Fragments replace their own artifact only

Four artifacts are made for a function: its handler, its binding and the types of both. Each reads
some of the fragments that a provider has for the function, and no others. So two providers lead to
the same artifact as soon as they agree on what it reads; names of typed parameters reach a handler
only in the comment above it.
-/
namespace ScriptGlue

open Code

/-- Two providers have the same of some part of what is written by hand for a function. -/
def CustomProvider.Agree {α : Type} (a b : CustomProvider) (table : Table) (name : String)
    (part : Custom → Option α) : Prop :=
  (a table name).bind part = (b table name).bind part

/-- Whether an event is written by hand, whatever it says. -/
def Custom.eventMark (c : Custom) : Option Unit := c.event.map fun _ => ()

def listenerComment (scriptNamespace event : String) (args : List String) : String :=
  let list := ", ".intercalate args
  s!"// {scriptNamespace}.on('{event}', ({list}) => console.log('{event} fired!'));"

namespace EventSlot

/-- The slot with other names in the comment above its handler. -/
def listing (args : List String) : EventSlot → EventSlot
  | empty symbol => .empty symbol
  | handler h => .handler { h with listenerArgs := args }

/-- Two slots whose handlers differ in the comment above them at most. -/
structure SameBelowComment (scriptNamespace : String) (a b : EventSlot) : Prop where
  entry : a.entry = b.entry
  event : a.handler?.map (·.event) = b.handler?.map (·.event)
  flags : a.flags = b.flags
  code : a.code scriptNamespace = b.code scriptNamespace ∨
    ∃ event first second below,
      a.code scriptNamespace = listenerComment scriptNamespace event first ++ "\n" ++ below ∧
        b.code scriptNamespace = listenerComment scriptNamespace event second ++ "\n" ++ below

end EventSlot

theorem Code.FunctionDef.source_comment (f : FunctionDef) (comment : String) :
    { f with comments := [comment] }.source =
      "// " ++ comment ++ "\n" ++ { f with comments := [] }.source := by
  rw [source_eq, source_eq]
  simp [shown, Text.unlines]

namespace Handler

/-- The code of a handler is the comment above it and what does not depend on that. -/
theorem source_definition (h : Handler) (scriptNamespace : String) :
    (h.definition scriptNamespace).source =
      listenerComment scriptNamespace h.event h.listenerArgs ++ "\n" ++
        { h.definition scriptNamespace with comments := [] }.source :=
  (h.definition scriptNamespace).source_comment (h.usage scriptNamespace)

end Handler

/-- Other names in the comment above a handler change nothing below it. -/
theorem EventSlot.sameBelowComment_listing (scriptNamespace : String) (args : List String)
    (s : EventSlot) : SameBelowComment scriptNamespace s (s.listing args) := by
  cases s with
  | empty symbol => exact ⟨rfl, rfl, rfl, .inl rfl⟩
  | handler h =>
    refine ⟨rfl, rfl, rfl, .inr ⟨h.event, h.listenerArgs, args,
      { h.definition scriptNamespace with comments := [] }.source, ?_, ?_⟩⟩
    · exact h.source_definition scriptNamespace
    · exact Handler.source_definition { h with listenerArgs := args } scriptNamespace

namespace Declaration

variable {g : GlueSettings} {other : CustomProvider} {table : Table} {d : Declaration}

/-! ### What each artifact reads -/

/-- A handler reads the event written by hand, and typed parameters for the comment above it. -/
theorem eventSlot_of_event (phase : Phase)
    (event : g.custom.Agree other table d.name (·.event)) :
    (d.eventSlot { g with custom := other } table phase).value =
        (d.eventSlot g table phase).value.listing (listenerNames other table d) ∧
      (d.eventSlot { g with custom := other } table phase).journal =
        (d.eventSlot g table phase).journal := by
  unfold CustomProvider.Agree at event
  simp only [eventSlot, event]
  split
  · exact ⟨rfl, rfl⟩
  · exact ⟨rfl, rfl⟩

/-- A handler is the same for two providers that agree on its event and on the typed parameters. -/
theorem eventSlot_of_params (phase : Phase)
    (event : g.custom.Agree other table d.name (·.event))
    (params : g.custom.Agree other table d.name (·.params)) :
    d.eventSlot { g with custom := other } table phase = d.eventSlot g table phase := by
  unfold CustomProvider.Agree at event params
  simp only [eventSlot, event, params]

theorem binding_of_apiBody (body : g.custom.Agree other table d.name (·.apiBody)) :
    d.binding { g with custom := other } table = d.binding g table := by
  unfold CustomProvider.Agree at body
  simp only [binding, body, bindingDef]

/-- Two providers with the same typed parameters and result lead to the same call signature. -/
theorem apiTyping_of_types (params : g.custom.Agree other table d.name (·.params))
    (returns : g.custom.Agree other table d.name (·.returns)) :
    d.apiTyping { g with custom := other } table = d.apiTyping g table := by
  unfold CustomProvider.Agree at params returns
  simp only [apiTyping, params, returns]

/-- The type of a listener depends on the typed parameters, and on whether the event is written by
hand. -/
theorem eventTyping_of_params (phase : Phase)
    (params : g.custom.Agree other table d.name (·.params))
    (event : g.custom.Agree other table d.name Custom.eventMark) :
    d.eventTyping? { g with custom := other } table phase = d.eventTyping? g table phase := by
  unfold CustomProvider.Agree at params
  have written : ((g.custom table d.name).bind (·.event)).isNone =
      ((other table d.name).bind (·.event)).isNone := by
    have mark (found : Option Custom) :
        (found.bind (·.event)).isNone = (found.bind Custom.eventMark).isNone := by
      cases found <;> simp [Custom.eventMark]
    rw [mark, mark, event]
  simp only [eventTyping?, params, written]

/-! ### Artifacts apart from one another -/

structure Artifacts where
  event : Phase → Logged EventSlot
  api : Logged Binding
  typing : TypedSignature
  eventTyping : Phase → Option TypedSignature

def artifacts (g : GlueSettings) (table : Table) (d : Declaration) : Artifacts where
  event phase := d.eventSlot g table phase
  api := d.binding g table
  typing := d.apiTyping g table
  eventTyping phase := d.eventTyping? g table phase

/-- Which fragments matter to which artifact when one provider takes the place of another. -/
structure FragmentsApart (g : GlueSettings) (other : CustomProvider) (table : Table)
    (d : Declaration) : Prop where
  event (phase : Phase) : g.custom.Agree other table d.name (·.event) →
    g.custom.Agree other table d.name (·.params) →
    d.eventSlot { g with custom := other } table phase = d.eventSlot g table phase
  /-- Typed parameters show in the comment above a handler and nowhere else. -/
  comment (phase : Phase) : g.custom.Agree other table d.name (·.event) →
    EventSlot.SameBelowComment g.scriptNamespace (d.eventSlot g table phase).value
      (d.eventSlot { g with custom := other } table phase).value
  api : g.custom.Agree other table d.name (·.apiBody) →
    d.binding { g with custom := other } table = d.binding g table
  typing : g.custom.Agree other table d.name (·.params) →
    g.custom.Agree other table d.name (·.returns) →
    d.apiTyping { g with custom := other } table = d.apiTyping g table
  eventTyping (phase : Phase) : g.custom.Agree other table d.name (·.params) →
    g.custom.Agree other table d.name Custom.eventMark →
    d.eventTyping? { g with custom := other } table phase = d.eventTyping? g table phase
  /-- What a provider has for other functions, or for a function of this name in the other table,
  matters to nothing. -/
  others : other table d.name = g.custom table d.name →
    d.artifacts { g with custom := other } table = d.artifacts g table

/-- What registering fragments for a function does to the artifacts of all functions. -/
structure RegisteredApart (g : GlueSettings) (r : CustomRegistry) (table : Table) (name : String)
    (c : Custom) : Prop where
  found : (r.insert table name c).find? table name = some c
  others (table' : Table) (name' : String) : (table', name') ≠ (table, name) →
    (r.insert table name c).find? table' name' = r.find? table' name'
  artifacts (table' : Table) (d : Declaration) : (table', d.name) ≠ (table, name) →
    d.artifacts { g with custom := (r.insert table name c).find? } table' =
      d.artifacts { g with custom := r.find? } table'

/-- Only the entry of the function itself matters to what is made for it. -/
theorem artifacts_of_entry (same : other table d.name = g.custom table d.name) :
    d.artifacts { g with custom := other } table = d.artifacts g table := by
  have agree {α : Type} (part : Custom → Option α) : g.custom.Agree other table d.name part := by
    rw [CustomProvider.Agree, same]
  simp only [artifacts, eventSlot_of_params _ (agree _) (agree _), binding_of_apiBody (agree _),
    apiTyping_of_types (agree _) (agree _), eventTyping_of_params _ (agree _) (agree _)]

/-- For every function and any two providers, each artifact depends on its own fragments of the
entry for the function only, and registering an entry changes the look-up at its key only. -/
theorem fragments_apart (g : GlueSettings) (other : CustomProvider) (table : Table)
    (d : Declaration) : d.FragmentsApart g other table ∧
      ∀ (r : CustomRegistry) (key : Table) (name : String) (c : Custom),
        RegisteredApart g r key name c := by
  constructor
  · exact {
      event := eventSlot_of_params
      comment := by
        intro phase event
        rw [(eventSlot_of_event phase event).1]
        exact EventSlot.sameBelowComment_listing _ _ _
      api := binding_of_apiBody
      typing := apiTyping_of_types
      eventTyping := eventTyping_of_params
      others := artifacts_of_entry }
  · intro r key name c
    have apart {table' : Table} {name' : String} (distinct : (table', name') ≠ (key, name)) :
        (r.insert key name c).find? table' name' = r.find? table' name' := by
      rw [CustomRegistry.find?_insert, if_neg distinct]
    exact {
      found := by rw [CustomRegistry.find?_insert, if_pos rfl]
      others := fun _ _ => apart
      artifacts := fun _ _ distinct =>
        artifacts_of_entry (g := { g with custom := r.find? }) (apart distinct) }

end Declaration

end ScriptGlue
