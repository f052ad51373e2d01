import Variability.Analysis.Survey

/-! A survey as a fold over events. An event is a change together with the owner
of the script that makes it. What a survey holds about blocks and unknown events
depends on the events alone; visiting a script adds the events that the script
has by itself, whatever was visited before. What a survey holds about scripts and
features depends in the same way on the fingerprints and the reads alone. -/
namespace Variability

instance : Std.TransOrd BlockKey :=
  inferInstanceAs (Std.TransCmp (compareLex (compareOn BlockKey.owner) (compareOn BlockKey.name)))

instance : Std.LawfulEqOrd BlockKey where
  eq_of_compare {a b} h := by
    obtain ⟨owner, name⟩ := compareLex_eq_eq.mp h
    cases a
    cases b
    rw [BlockKey.mk.injEq]
    exact ⟨Std.LawfulEqOrd.eq_of_compare owner, Std.LawfulEqOrd.eq_of_compare name⟩

structure Event where
  owner : String
  mutation : Mutation
  deriving DecidableEq, Repr

namespace Event

def key? (e : Event) : Option BlockKey :=
  e.mutation.resolution.target?.map (BlockKey.mk e.owner)

def toUnknown (e : Event) : UnknownEvent := .ofMutation e.owner e.mutation

def count (blocks : Blocks) (e : Event) : Blocks :=
  match e.key? with
  | some key => blocks.alter key fun stats => some ((stats.getD {}).record e.mutation)
  | none => blocks

/-- The events that are listed for want of a block. -/
def listed (settings : Settings) (events : List Event) : List UnknownEvent :=
  if settings.includeUnknownEvents then
    (events.filter fun e => e.key?.isNone).map toUnknown
  else []

@[simp] theorem listed_append (settings : Settings) (events more : List Event) :
    listed settings (events ++ more) = listed settings events ++ listed settings more := by
  unfold listed
  cases settings.includeUnknownEvents <;> simp

end Event

def Visit.events (isFeature : String → Bool) (v : Visit) : List Event :=
  ((Script.ofElement v.script).mutations isFeature).map (Event.mk v.owner)

def Project.events (settings : Settings) (p : Project) : List Event :=
  (Visit.ofRoot settings p.root).flatMap (Visit.events (Configured.collect p.root).contains)

def Visit.scriptId (v : Visit) : ScriptId := fingerprint v.script

def Project.scriptIds (settings : Settings) (p : Project) : List ScriptId :=
  (Visit.ofRoot settings p.root).map Visit.scriptId

def Usage.recordReads (u : Usage) (c : Configured) (v : Visit) : Usage :=
  u.record v.scriptId (c.readBy v.script)

def Project.usage (settings : Settings) (p : Project) : Usage :=
  (Visit.ofRoot settings p.root).foldl (·.recordReads (Configured.collect p.root) ·) {}

namespace Survey

def addEvents (s : Survey) (events : List Event) : Survey :=
  { s with
    blocks := events.foldl Event.count s.blocks
    unknown := s.unknown ++ (Event.listed s.settings events).toArray }

private theorem record_eq_addEvents (s : Survey) (owner : String) (m : Mutation) :
    record owner s m = s.addEvents [⟨owner, m⟩] := by
  unfold record addEvents Event.listed
  cases known : m.resolution.target? with
  | some name => simp [Event.count, Event.key?, known]
  | none =>
    cases included : s.settings.includeUnknownEvents with
    | true => simp [Event.count, Event.key?, Event.toUnknown, known]
    | false => simp [Event.count, Event.key?, known]

@[simp] theorem addEvents_append (s : Survey) (events more : List Event) :
    (s.addEvents events).addEvents more = s.addEvents (events ++ more) := by
  simp only [addEvents, List.foldl_append, Event.listed_append, Array.append_assoc,
    List.append_toArray]

@[simp] theorem addEvents_nil (s : Survey) : s.addEvents [] = s := by
  simp [addEvents, Event.listed]

@[simp] theorem foldl_record (s : Survey) (owner : String) (mutations : List Mutation) :
    mutations.foldl (record owner) s = s.addEvents (mutations.map (Event.mk owner)) := by
  induction mutations generalizing s with
  | nil => exact (addEvents_nil s).symm
  | cons m rest ih =>
    rw [List.foldl_cons, ih, record_eq_addEvents, addEvents_append]
    rfl

/-- What a visit does: it adds the events that its script has by itself, and what the
script is and reads. -/
theorem visit_eq (s : Survey) (v : Visit) :
    s.visit v =
      { s.addEvents (v.events s.configured.contains) with
        repeats := s.repeats.record v.scriptId
        usage := s.usage.recordReads s.configured v } := by
  unfold visit
  rw [foldl_record]
  rfl

@[simp] theorem visit_blocks (s : Survey) (v : Visit) :
    (s.visit v).blocks = (v.events s.configured.contains).foldl Event.count s.blocks := by
  rw [visit_eq]
  rfl

@[simp] theorem visit_unknown (s : Survey) (v : Visit) :
    (s.visit v).unknown =
      s.unknown ++ (Event.listed s.settings (v.events s.configured.contains)).toArray := by
  rw [visit_eq]
  rfl

/-- The tallies after some visits, each by itself. -/
theorem foldl_visit (s : Survey) (visits : List Visit) :
    visits.foldl visit s =
      { s.addEvents (visits.flatMap (Visit.events s.configured.contains)) with
        repeats := (visits.map Visit.scriptId).foldl Repeats.record s.repeats
        usage := visits.foldl (·.recordReads s.configured ·) s.usage } := by
  induction visits generalizing s with
  | nil => simp
  | cons v rest ih =>
    rw [List.foldl_cons, ih, visit_eq, List.flatMap_cons, ← addEvents_append]
    rfl

end Survey

theorem analyzeProject_eq (settings : Settings) (p : Project) :
    analyzeProject settings p =
      Survey.finish
        { settings
          configured := Configured.collect p.root
          blocks := (p.events settings).foldl Event.count {}
          unknown := (Event.listed settings (p.events settings)).toArray
          repeats := (p.scriptIds settings).foldl Repeats.record {}
          usage := p.usage settings
          discarded := p.discarded } := by
  unfold analyzeProject Survey.analyze
  rw [Survey.foldl_visit]
  simp only [Survey.addEvents, Array.empty_append]
  rfl

@[simp] theorem analyzeProject_blocks (settings : Settings) (p : Project) :
    (analyzeProject settings p).blocks = (p.events settings).foldl Event.count {} := by
  rw [analyzeProject_eq]
  rfl

@[simp] theorem analyzeProject_unknownEvents (settings : Settings) (p : Project) :
    (analyzeProject settings p).unknownEvents = Event.listed settings (p.events settings) := by
  rw [analyzeProject_eq]
  rfl

end Variability
