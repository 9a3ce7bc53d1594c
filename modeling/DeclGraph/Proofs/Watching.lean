import Mathlib.Data.List.Forall2
import DeclGraph.Proofs.LayoutPass
import DeclGraph.Proofs.ResolutionPass

/-!
# Passes that are watched

A sink is called while a pass runs: the task is announced with the number of its items before any
of them is dealt with, each item is reported when it has been dealt with, and the end is announced
when the flush has gone through. Here both passes are run with a sink in this way. What comes of it
is what comes of a run without one, whose activity lists the calls that the sink gets.

* `Watch`: a sink that may be absent, with the count of items.
* `Watch.each_eq`: a watched loop does what the loop does, and reports what came of it in order.
* `Store.watchResolution_eq`, `Store.watchLayout_eq`: **a watched pass is the pass, and its sink gets
  the calls of the pass.**
* `Store.watched_passes`: **no sink has an influence, and progress is complete.**
-/

namespace DeclGraph

/-- The calls for a task that has been announced with `total` items, of which those with `messages`
have been reported so far. -/
def begunCalls (task : String) (total : Nat) (messages : List String) : List ProgressCall :=
  .start task total :: (messages.zipIdx 1).map fun p => .report p.2 p.1

/-- The calls for a task of which all items have been reported, and the end. -/
def completeCalls (task : String) (messages : List String) (closing : String) :
    List ProgressCall := begunCalls task messages.length messages ++ [.finish closing]

/-- A recording of complete progress: one start, a report for each number up to the total, and one
finish. -/
theorem Recording.ofCalls_complete (task : String) (messages : List String) (closing : String) :
    Recording.ofCalls (completeCalls task messages closing) =
      ⟨[(task, messages.length)], List.range' 1 messages.length, [closing]⟩ := by
  have hreports : ∀ (k : Nat) (r : Recording),
      ((messages.zipIdx k).map fun p => ProgressCall.report p.2 p.1).foldl Recording.receive r =
        { r with reports := r.reports ++ List.range' k messages.length } := by
    induction messages with
    | nil => simp
    | cons message messages ih =>
      intro k r
      simp [ih, Recording.receive, List.range'_succ]
  simp only [ofCalls, completeCalls, begunCalls, List.foldl_append, List.foldl_cons, hreports]
  simp [Recording.receive]

/-! ## Calls among activities -/

namespace Activity

@[simp] theorem calls_nil : calls [] = [] := rfl

@[simp] theorem calls_progress (c : ProgressCall) (as : List Activity) :
    calls (.progress c :: as) = c :: calls as := rfl

@[simp] theorem calls_note (n : Note) (as : List Activity) : calls (.note n :: as) = calls as := rfl

@[simp] theorem calls_append (as bs : List Activity) : calls (as ++ bs) = calls as ++ calls bs :=
  List.filterMap_append

@[simp] theorem calls_notes (ns : List Note) : calls (ns.map .note) = [] := by
  simp [calls, List.filterMap_map]

/-- Reports count items up from those that came first. -/
theorem calls_reports (done : Nat) (items : List (List Note × String × List Note)) :
    calls (reports done items) =
      ((items.map (·.2.1)).zipIdx (done + 1)).map fun p => .report p.2 p.1 := by
  induction items generalizing done with
  | nil => rfl
  | cons item items ih =>
    obtain ⟨before, message, after⟩ := item
    simp only [reports, calls_append, calls_progress, calls_notes, ih, List.nil_append,
      List.cons_append, List.map_cons, List.zipIdx_cons]

end Activity

/-! ## Watching a loop -/

/-- A sink that may be absent, with the count of the items that are done. -/
structure Watch (σ : Type) where
  sink : Option σ
  counter : ProgressCounter := {}

namespace Watch

variable {σ α β γ : Type} (receive : σ → ProgressCall → σ) (w : Watch σ)

/-- Makes a call on the sink, if there is one. -/
def call (c : ProgressCall) : Watch σ := { w with sink := w.sink.map (receive · c) }

/-- Announces a task. -/
def start (task : String) (total : Nat) : Watch σ :=
  let (counter, c) := ProgressCounter.start task total
  call receive { w with counter } c

/-- Counts an item and reports it. -/
def step (message : String) : Watch σ :=
  let (counter, c) := w.counter.step message
  call receive { w with counter } c

/-- Announces the end. -/
def finish (message : String) : Watch σ := w.call receive (.finish message)

/-- Deals with things in order, each in the state that those before it left. What comes of one is an
item, which is reported; nothing is reported if nothing comes of it. -/
def each (deal : γ → α → γ × Option β) (message : β → String) (g : γ) (w : Watch σ) :
    List α → γ × List β × Watch σ
  | [] => (g, [], w)
  | a :: rest =>
    match deal g a with
    | (g, none) => each deal message g w rest
    | (g, some b) =>
      let (g, bs, w) := each deal message g (w.step receive (message b)) rest
      (g, b :: bs, w)

/-- The same without a report. -/
def dealt (deal : γ → α → γ × Option β) (g : γ) : List α → γ × List β
  | [] => (g, [])
  | a :: rest =>
    match deal g a with
    | (g, none) => dealt deal g rest
    | (g, some b) =>
      let (g, bs) := dealt deal g rest
      (g, b :: bs)

/-- Reports items in order. -/
def steps (messages : List String) : Watch σ := messages.foldl (step receive) w

variable {receive w}

theorem steps_append (ms ns : List String) :
    w.steps receive (ms ++ ns) = (w.steps receive ms).steps receive ns := List.foldl_append

/-- Items are counted up, and the sink gets the reports. -/
theorem steps_eq (messages : List String) : w.steps receive messages =
    { counter := ⟨w.counter.completed + messages.length⟩
      sink := w.sink.map (((messages.zipIdx (w.counter.completed + 1)).map
        fun p => ProgressCall.report p.2 p.1).foldl receive ·) } := by
  induction messages generalizing w with
  | nil =>
    obtain ⟨_ | sink, counter⟩ := w <;> rfl
  | cons message messages ih =>
    rw [steps, List.foldl_cons, ← steps, ih]
    obtain ⟨_ | sink, counter⟩ := w <;>
      simp [step, call, ProgressCounter.step, Nat.add_assoc, Nat.add_comm 1]

/-- **A watched loop does what the loop does**, and reports what came of it in order. -/
theorem each_eq (deal : γ → α → γ × Option β) (message : β → String) (g : γ) (as : List α) :
    each receive deal message g w as = ((dealt deal g as).1, (dealt deal g as).2,
      w.steps receive ((dealt deal g as).2.map message)) := by
  induction as generalizing g w with
  | nil => rfl
  | cons a rest ih =>
    rw [each, dealt]
    rcases deal g a with ⟨g', _ | b⟩
    · exact ih g'
    · simp only [ih]
      rfl

/-- A loop whose items do not depend on each other. -/
theorem dealt_map (f : α → β) (as : List α) :
    dealt (fun (_ : Unit) a => ((), some (f a))) () as = ((), as.map f) := by
  induction as with
  | nil => rfl
  | cons a rest ih => simp only [dealt, ih, List.map_cons]

end Watch

/-- What came of a pass that was watched, with the sink after it. -/
structure WatchedRun (ρ σ : Type) where
  outcome : Except StoreError ρ
  store : Store
  sink : Option σ

/-- The run with a sink that gets all calls of the pass. -/
def PassRun.watchedBy {ρ σ : Type} (run : PassRun ρ) (receive : σ → ProgressCall → σ)
    (sink : Option σ) : WatchedRun ρ σ :=
  ⟨run.outcome, run.store, sink.map ((Activity.calls run.activity).foldl receive ·)⟩

/-- A run ends with a flush. If it goes through, the report is made with its changes, and the end is
announced after all other calls. -/
structure PassRun.Concludes {ρ : Type} (run : PassRun ρ) (report : Changes → ρ)
    (closing : ρ → String) (committed : Except StoreError Changes × Store)
    (calls : List ProgressCall) : Prop where
  store : run.store = committed.2
  refused : ∀ e, committed.1 = .error e →
    run.outcome = .error e ∧ Activity.calls run.activity = calls
  done : ∀ changes, committed.1 = .ok changes → run.outcome = .ok (report changes) ∧
    Activity.calls run.activity = calls ++ [.finish (closing (report changes))]

section Concluding

variable {ρ σ : Type} {receive : σ → ProgressCall → σ} {run : PassRun ρ} {report : Changes → ρ}
  {closing : ρ → String} {committed : Except StoreError Changes × Store}

theorem PassRun.Concludes.calls_eq {calls : List ProgressCall}
    (h : run.Concludes report closing committed calls) {r : ρ} (hok : run.outcome = .ok r) :
    Activity.calls run.activity = calls ++ [.finish (closing r)] := by
  cases hcommitted : committed.1 with
  | error e =>
    rw [(h.refused e hcommitted).1] at hok
    cases hok
  | ok changes =>
    obtain ⟨houtcome, hcalls⟩ := h.done changes hcommitted
    obtain rfl := Except.ok.inj (houtcome.symm.trans hok)
    exact hcalls

namespace Watch

/-- The end of a watched pass, which is announced if the flush went through. -/
def conclude (receive : σ → ProgressCall → σ) (w : Watch σ) (report : Changes → ρ)
    (closing : ρ → String) : Except StoreError Changes × Store → WatchedRun ρ σ
  | (.error e, store) => ⟨.error e, store, w.sink⟩
  | (.ok changes, store) =>
    ⟨.ok (report changes), store, (w.finish receive (closing (report changes))).sink⟩

/-- The calls of a task that has been begun. -/
theorem sink_begun (sink : Option σ) (task : String) (total : Nat) (messages : List String) :
    ((start receive { sink } task total).steps receive messages).sink =
      sink.map ((begunCalls task total messages).foldl receive ·) := by
  rw [steps_eq]
  cases sink <;> rfl

/-- **A sink that is called as a pass goes along gets all calls of the pass.** -/
theorem conclude_begun (sink : Option σ) {task : String} {total : Nat} {messages : List String}
    (h : run.Concludes report closing committed (begunCalls task total messages)) :
    conclude receive ((start receive { sink } task total).steps receive messages) report closing
      committed = run.watchedBy receive sink := by
  rcases committed with ⟨e | changes, store⟩
  · obtain ⟨houtcome, hcalls⟩ := h.refused e rfl
    rw [conclude, sink_begun, PassRun.watchedBy, houtcome, h.store, hcalls]
  · obtain ⟨houtcome, hcalls⟩ := h.done changes rfl
    rw [conclude, finish, call, sink_begun, PassRun.watchedBy, houtcome, h.store, hcalls]
    simp only [List.foldl_append, List.foldl_cons, List.foldl_nil, Option.map_map,
      Function.comp_def]

end Watch

end Concluding

/-! ## Watching the passes -/

section Passes

variable {σ : Type} (receive : σ → ProgressCall → σ)

/-- Deals with a template argument, of which an item always comes. -/
def Sharing.deal (h : Sharing) (a : TemplateArgument) : Sharing × Option ResolvedItem :=
  let (h, item) := h.step a
  (h, some item)

/-- Lays out an aggregate, and passes over it if it has no layout. -/
def LayoutInput.deal (d : LayoutInput) (m : Memo) (n : DeclaredType) : Memo × Option LayoutItem :=
  let ((found, notes), m) := LayoutM.collecting (d.layout? .words n.id) m
  (m, found.map fun layout => ⟨layout, n.isIgnored, notes⟩)

namespace Store

variable (s : Store)

/-- Works out a resolution pass with a sink, and stages what was found. -/
def watchPlan (w : Watch σ) : ResolutionPlan × Watch σ :=
  let (_, references, w) := w.each receive
    (fun _ u => ((), some (u.reference.id, s.resolveReference u))) (·.2.typeString) ()
    s.unresolvedReferences
  let (_, bases, w) := w.each receive (fun _ b => ((), some (b.id, s.resolveBase b)))
    (·.2.typeString) () s.unresolvedBases
  let (shared, arguments, w) := w.each receive Sharing.deal (·.typeString) { store := s }
    s.unresolvedArguments
  let resolutions := references.filterMap fun (id, i) => i.outcome.map (id, ·)
  let targets := bases.filterMap fun (id, i) =>
    match i.outcome with
    | some (.type t) => some (id, t)
    | _ => none
  ({ items := references.map Prod.snd ++ bases.map Prod.snd ++ arguments
     created := shared.created
     store := ((shared.store.stageResolutions (resolutions ++ shared.resolutions)).stageBases
       targets).stageLinks shared.links }, w)

/-- A resolution pass with a sink, which is called as the pass goes along. -/
def watchResolution (sampleLimit : Nat) (sink : Option σ) : WatchedRun ResolutionReport σ :=
  let total := s.unresolvedReferences.length + s.unresolvedBases.length +
    s.unresolvedArguments.length
  let (plan, w) := s.watchPlan receive
    (Watch.start receive { sink } "Resolving type references" total)
  let report := ResolutionReport.ofItems sampleLimit plan.created plan.items
  w.conclude receive (fun changes => { report with changes })
    (fun r => toString r.totals.unresolved ++ " unresolved") plan.store.flush.value

/-- A layout pass with a sink, which is called as the pass goes along. -/
def watchLayout (keepLayouts : Bool) (sink : Option σ) : WatchedRun LayoutReport σ :=
  let d := s.layoutInput
  let w := Watch.start receive { sink } "Calculating layouts" d.aggregates.length
  let (memo, items, w) := w.each receive d.deal (·.layout.name) {} d.aggregates
  let report := LayoutReport.ofItems keepLayouts memo.defaulted items
  w.conclude receive (fun changes => { report with changes })
    (fun r => toString r.typesLaidOut ++ " types") (s.stageLayouts items).flush.value

end Store

theorem Sharing.dealt_deal (h : Sharing) (as : List TemplateArgument) :
    Watch.dealt Sharing.deal h as = Sharing.run h as := by
  induction as generalizing h with
  | nil => rfl
  | cons a rest ih => simp only [Watch.dealt, Sharing.deal, Sharing.run, ih]

/-- Something comes of every template argument. -/
theorem Sharing.length_run (h : Sharing) (as : List TemplateArgument) :
    (h.run as).2.length = as.length := by
  induction as generalizing h with
  | nil => rfl
  | cons a rest ih => rw [run, List.length_cons, List.length_cons, ih]

theorem LayoutInput.dealt_deal (d : LayoutInput) (m : Memo) (ns : List DeclaredType) :
    Watch.dealt d.deal m ns = ((d.layItems m ns).2, (d.layItems m ns).1) := by
  induction ns generalizing m with
  | nil => rfl
  | cons n rest ih =>
    rw [Watch.dealt, LayoutInput.deal, LayoutInput.layItems]
    rcases LayoutM.collecting (d.layout? .words n.id) m with ⟨⟨_ | layout, notes⟩, m'⟩
    · exact ih m'
    · simp only [Option.map_some, ih]

namespace Store

variable {s : Store} {receive}

/-- Watching works out the same, and reports every item. -/
theorem watchPlan_eq (w : Watch σ) : s.watchPlan receive w =
    (s.planResolution, w.steps receive (s.planResolution.items.map (·.typeString))) := by
  have hmessages : s.planResolution.items.map (·.typeString) =
      s.unresolvedReferences.map (fun u => (s.resolveReference u).typeString) ++
        s.unresolvedBases.map (fun b => (s.resolveBase b).typeString) ++
          (Sharing.run { store := s } s.unresolvedArguments).2.map (·.typeString) := by
    simp only [planResolution, List.map_append, List.map_map, Function.comp_def]
  refine Prod.ext ?_ ?_
  · simp only [watchPlan, Watch.each_eq, Watch.dealt_map, Sharing.dealt_deal]
    rfl
  · rw [hmessages, Watch.steps_append, Watch.steps_append]
    simp only [watchPlan, Watch.each_eq, Watch.dealt_map, Sharing.dealt_deal, List.map_map,
      Function.comp_def]

theorem length_items : s.planResolution.items.length = s.unresolvedReferences.length +
    s.unresolvedBases.length + s.unresolvedArguments.length := by
  rw [planResolution]
  simp [Sharing.length_run, Nat.add_assoc]

theorem concludes_runResolution (sampleLimit : Nat) : (s.runResolution sampleLimit).Concludes
    (fun changes => { ResolutionReport.ofItems sampleLimit s.planResolution.created
      s.planResolution.items with changes })
    (fun r => toString r.totals.unresolved ++ " unresolved") s.planResolution.store.flush.value
    (begunCalls "Resolving type references" s.planResolution.items.length
      (s.planResolution.items.map (·.typeString))) := by
  -- the definition says what a run is in either case, and notes are no calls
  rcases hcommitted : s.planResolution.store.flush.value with ⟨e | changes, store⟩ <;>
    constructor <;> simp only [runResolution, hcommitted] <;>
    simp [begunCalls, Activity.calls_reports, Function.comp_def]

theorem concludes_runLayout (keepLayouts : Bool) : (s.runLayout keepLayouts).Concludes
    (fun changes => { LayoutReport.ofItems keepLayouts s.layoutItems.2 s.layoutItems.1 with
      changes })
    (fun r => toString r.typesLaidOut ++ " types") (s.stageLayouts s.layoutItems.1).flush.value
    (begunCalls "Calculating layouts" s.aggregates.length
      (s.layoutItems.1.map (·.layout.name))) := by
  rcases hcommitted : (s.stageLayouts s.layoutItems.1).flush.value with ⟨e | changes, store⟩ <;>
    constructor <;> simp only [runLayout, hcommitted] <;>
    simp [begunCalls, Activity.calls_reports, Function.comp_def]

/-- **A watched resolution pass is the pass**, and its sink gets the calls of the pass. -/
theorem watchResolution_eq (sampleLimit : Nat) (sink : Option σ) :
    s.watchResolution receive sampleLimit sink =
      (s.runResolution sampleLimit).watchedBy receive sink := by
  -- the total that is announced is the number of items that there will be
  rw [watchResolution, ← length_items, watchPlan_eq]
  exact Watch.conclude_begun sink (s.concludes_runResolution sampleLimit)

/-- **A watched layout pass is the pass**, and its sink gets the calls of the pass. -/
theorem watchLayout_eq (keepLayouts : Bool) (sink : Option σ) :
    s.watchLayout receive keepLayouts sink =
      (s.runLayout keepLayouts).watchedBy receive sink := by
  rw [watchLayout, Watch.each_eq, LayoutInput.dealt_deal]
  exact Watch.conclude_begun sink (s.concludes_runLayout keepLayouts)

end Store

/-- A pass is watched without any influence on it, and its progress is complete if it succeeds: one
start with a total, a report for each number up to that in order, and one finish. -/
structure Watches {ρ : Type} (run : PassRun ρ) (pass : Option σ → WatchedRun ρ σ) : Prop where
  unmoved : ∀ sink, (pass sink).outcome = run.outcome ∧ (pass sink).store = run.store
  complete : ∀ report, run.outcome = .ok report → ∃ task messages closing, ∀ sink,
    (pass (some sink)).sink = some ((completeCalls task messages closing).foldl receive sink)

variable {receive}

theorem PassRun.Concludes.watches {ρ : Type} {run : PassRun ρ} {pass : Option σ → WatchedRun ρ σ}
    {report : Changes → ρ} {closing : ρ → String} {committed : Except StoreError Changes × Store}
    {task : String} {messages : List String}
    (h : run.Concludes report closing committed (begunCalls task messages.length messages))
    (hpass : ∀ sink, pass sink = run.watchedBy receive sink) : Watches receive run pass where
  unmoved sink := by
    rw [hpass]
    exact ⟨rfl, rfl⟩
  complete report hok := by
    refine ⟨task, messages, closing report, fun sink => ?_⟩
    rw [hpass, PassRun.watchedBy, h.calls_eq hok]
    rfl

/-- **No sink has an influence on a pass, and progress is complete**: what is announced is the
number of items, and every aggregate has a layout. -/
theorem Store.watched_passes {s : Store} (h : s.Reachable) (sampleLimit : Nat)
    (keepLayouts : Bool) :
    Watches receive (s.runResolution sampleLimit) (s.watchResolution receive sampleLimit) ∧
      Watches receive (s.runLayout keepLayouts) (s.watchLayout receive keepLayouts) := by
  have hlength : s.layoutItems.1.length = s.aggregates.length := h.sound.items.length_eq.symm
  constructor
  · have hconcludes := s.concludes_runResolution sampleLimit
    rw [← List.length_map (·.typeString)] at hconcludes
    exact hconcludes.watches (s.watchResolution_eq sampleLimit)
  · have hconcludes := s.concludes_runLayout keepLayouts
    rw [← hlength, ← List.length_map (·.layout.name)] at hconcludes
    exact hconcludes.watches (s.watchLayout_eq keepLayouts)

end Passes

namespace Store

/-- A base, template arguments that share a reference, a member for which nothing is found, and an
ignored type. -/
def assorted : Store :=
  [.addType { name := "Foo", kind := .struct },
    .addMember ⟨1⟩ { name := "ghost", typeString := "Ghost", order := some 0 },
    .addType { name := "Pair<int, int>", kind := .class_, isIgnored := true },
    .addBase ⟨4⟩ "Foo", .addArgument ⟨4⟩ "int",
    Operation.addArgument ⟨4⟩ "int"].foldl perform empty

theorem reachable_assorted : assorted.Reachable := leads_foldl _ _

theorem watched_passes_assorted :
    ((assorted.watchResolution Recording.receive 25 (some {})).store =
        (assorted.watchResolution Recording.receive 25 none).store ∧
      ∃ task total closing, (assorted.watchResolution Recording.receive 25 (some {})).sink =
        some ⟨[(task, total)], List.range' 1 total, [closing]⟩) ∧
    (assorted.watchLayout Recording.receive true (some {})).store =
        (assorted.watchLayout Recording.receive true none).store ∧
      ∃ task total closing, (assorted.watchLayout Recording.receive true (some {})).sink =
        some ⟨[(task, total)], List.range' 1 total, [closing]⟩ := by
  have hsound := reachable_assorted.sound
  obtain ⟨-, resolutions, hresolved, -⟩ := run_resolved hsound rfl 25
  have hlaid := runLayout_of_admitted (hsound.admitted_stageLayouts rfl) true
  obtain ⟨hresolution, hlayout⟩ := watched_passes reachable_assorted 25 true
  obtain ⟨task, messages, closing, hsink⟩ := hresolution.complete _ hresolved
  obtain ⟨task', messages', closing', hsink'⟩ := hlayout.complete _ hlaid
  refine ⟨⟨?_, task, messages.length, closing, ?_⟩, ?_, task', messages'.length, closing', ?_⟩
  · rw [(hresolution.unmoved _).2, (hresolution.unmoved _).2]
  · rw [hsink, ← Recording.ofCalls_complete, Recording.ofCalls]
  · rw [(hlayout.unmoved _).2, (hlayout.unmoved _).2]
  · rw [hsink', ← Recording.ofCalls_complete, Recording.ofCalls]

example : (assorted.watchResolution Recording.receive 25 (some {})).sink =
    some ⟨[("Resolving type references", 4)], [1, 2, 3, 4], ["1 unresolved"]⟩ := by decide +kernel

end Store

end DeclGraph
