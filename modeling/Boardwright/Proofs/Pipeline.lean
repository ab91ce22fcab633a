import Boardwright.Generation.Pipeline
import Boardwright.Proofs.Schedule

/-!
# The calls of a pipeline

A run is watched by generators that write down every call: which generator was called, with what,
and what came back.  The first phases write into the shared state and the second phases into the
results, and a second phase also writes down the whole state it was given.  So a second phase that
ran before some first phase would have the record of a state in which that first phase is missing.

* **`Pipeline.watched`**: the pipeline of the watched generators.
* **`Prepares`**, **`Generates`**: the calls of the two phases as relations, one rule for each way a
  call can end.  What holds of all runs is shown by induction on them.
* **`Orderly`**: which calls a run makes, and in which order.
-/

namespace Boardwright.Generation

variable {σ τ : Type}

/-! ### Watched generators -/

/-- A call of a first phase. -/
structure PrepareCall (σ : Type) where
  generator : ℕ
  given : σ
  left : σ
  result : Except Failure Template.Replacements

/-- A call of a second phase; its state comes with the first phases up to then. -/
structure GenerateCall (σ τ : Type) where
  generator : ℕ
  state : σ × List (PrepareCall σ)
  output : Template.Replacements
  given : τ
  left : τ
  result : Except Failure Unit

/-- The generator with the number `i`, which writes down its calls. -/
def Generator.watched (i : ℕ) (g : Generator σ τ) :
    Generator (σ × List (PrepareCall σ)) (τ × List (GenerateCall σ τ)) where
  name := g.name
  prepare s :=
    let back := g.prepare s.1
    ((back.1, s.2 ++ [⟨i, s.1, back.1, back.2⟩]), back.2)
  generate s output t :=
    let back := g.generate s.1 output t.1
    ((back.1, t.2 ++ [⟨i, s, output, t.1, back.1, back.2⟩]), back.2)

theorem prepare_watched {g : Generator σ τ} {s s' : σ} {result : Except Failure _} (i : ℕ)
    (log : List (PrepareCall σ)) (h : g.prepare s = (s', result)) :
    (g.watched i).prepare (s, log) = ((s', log ++ [⟨i, s, s', result⟩]), result) := by
  simp only [Generator.watched, h]

theorem generate_watched {g : Generator σ τ} {s : σ × List (PrepareCall σ)} {output : _} {t t' : τ}
    {result : Except Failure Unit} (i : ℕ) (log : List (GenerateCall σ τ))
    (h : g.generate s.1 output t = (t', result)) :
    (g.watched i).generate s output (t, log) =
      ((t', log ++ [⟨i, s, output, t, t', result⟩]), result) := by
  simp only [Generator.watched, h]

/-- The pipeline in which all generators write down their calls. -/
def Pipeline.watched (p : Pipeline σ τ) :
    Pipeline (σ × List (PrepareCall σ)) (τ × List (GenerateCall σ τ)) where
  generators := p.generators.mapIdx Generator.watched
  after := p.after

/-- Which phase of which generator is called. -/
inductive Step where
  | prepare (generator : ℕ)
  | generate (generator : ℕ)
  deriving DecidableEq, Repr

/-- What a watched run leaves behind. -/
abbrev WatchedRun (σ τ : Type) :=
  Run (σ × List (PrepareCall σ)) (τ × List (GenerateCall σ τ))

namespace WatchedRun

/-- The calls that were made. -/
def steps (w : WatchedRun σ τ) : List Step :=
  w.state.2.map (fun c => .prepare c.generator) ++ w.results.2.map (fun c => .generate c.generator)

/-- How the calls ended. -/
def endings (w : WatchedRun σ τ) : List (Except Failure Unit) :=
  w.state.2.map (fun c => c.result.map fun _ => ()) ++ w.results.2.map (·.result)

end WatchedRun

/-! ### The calls of the first phases -/

/-- The first phases of numbered generators from a state on: the calls, the state they leave, and
the outputs or the failure of the last call. -/
inductive Prepares : List (ℕ × Generator σ τ) → σ → List (PrepareCall σ) → σ →
    Except Failure (List ((ℕ × Generator σ τ) × Template.Replacements)) → Prop
  | done {s : σ} : Prepares [] s [] s (.ok [])
  | fail {i : ℕ} {g : Generator σ τ} {rest : List (ℕ × Generator σ τ)} {s s' : σ} {f : Failure} :
      g.prepare s = (s', .error f) →
      Prepares ((i, g) :: rest) s [⟨i, s, s', .error f⟩] s' (.error f)
  | next {i : ℕ} {g : Generator σ τ} {rest : List (ℕ × Generator σ τ)} {s s' s'' : σ}
      {output : Template.Replacements} {calls : List (PrepareCall σ)}
      {result : Except Failure (List ((ℕ × Generator σ τ) × Template.Replacements))} :
      g.prepare s = (s', .ok output) → Prepares rest s' calls s'' result →
      Prepares ((i, g) :: rest) s (⟨i, s, s', .ok output⟩ :: calls) s''
        (result.map (((i, g), output) :: ·))

/-- Running watched first phases makes the calls of `Prepares`, and they are written down. -/
theorem prepareAll_watched (gs : List (ℕ × Generator σ τ)) (s : σ) (log : List (PrepareCall σ)) :
    ∃ calls s' result, Prepares gs s calls s' result ∧
      prepareAll (gs.map fun x => x.2.watched x.1) (s, log) =
        ((s', log ++ calls), result.map (List.map fun x => (x.1.2.watched x.1.1, x.2))) := by
  induction gs generalizing s log with
  | nil => exact ⟨[], s, .ok [], .done, by simp [prepareAll, Except.map]⟩
  | cons x gs ih =>
    obtain ⟨i, g⟩ := x
    cases hback : g.prepare s with
    | mk s' result =>
      cases result with
      | error f =>
        refine ⟨_, s', .error f, .fail hback, ?_⟩
        simp only [List.map_cons, prepareAll, prepare_watched i log hback, Except.map]
      | ok output =>
        obtain ⟨calls, s'', result, hrest, hrun⟩ := ih s' (log ++ [⟨i, s, s', .ok output⟩])
        rw [List.append_assoc, List.singleton_append] at hrun
        refine ⟨_, s'', _, .next hback hrest, ?_⟩
        simp only [List.map_cons, prepareAll, prepare_watched i log hback, hrun]
        cases result with
        | error f => rfl
        | ok prepared => rfl

/-- Without watching, the same calls lead to the same state and the same outputs. -/
theorem Prepares.prepareAll_eq {gs : List (ℕ × Generator σ τ)} {s s' : σ}
    {calls : List (PrepareCall σ)} {result : Except Failure _} (h : Prepares gs s calls s' result) :
    prepareAll (gs.map (·.2)) s = (s', result.map (List.map fun x => (x.1.2, x.2))) := by
  induction h with
  | done => rfl
  | fail hback => simp only [List.map_cons, prepareAll, hback, Except.map]
  | @next _ _ _ _ _ _ _ _ result hback _ ih =>
    simp only [List.map_cons, prepareAll, hback, ih]
    cases result with
    | error f => rfl
    | ok prepared => rfl

/-- Each call is given what the call before it left. -/
def Linked {γ ι : Type} (given left : γ → ι) : ι → List γ → ι → Prop
  | s, [], s' => s = s'
  | s, c :: calls, s' => given c = s ∧ Linked given left (left c) calls s'

/-- Calls that end well up to the last, which ends as given; no call that ends well is the last. -/
def EndsWith (endings : List (Except Failure Unit)) : Except Failure Unit → Prop
  | .ok () => ∀ e ∈ endings, e = .ok ()
  | .error f => ∃ before, endings = before ++ [.error f] ∧ ∀ e ∈ before, e = .ok ()

theorem EndsWith.append {endings : List (Except Failure Unit)} {e : Except Failure Unit}
    (before : List (Except Failure Unit)) (hbefore : ∀ e ∈ before, e = .ok ())
    (h : EndsWith endings e) : EndsWith (before ++ endings) e := by
  cases e with
  | ok _ =>
    intro e he
    rcases List.mem_append.1 he with he | he
    · exact hbefore e he
    · exact h e he
  | error f =>
    obtain ⟨between, rfl, hbetween⟩ := h
    refine ⟨before ++ between, by rw [List.append_assoc], fun e he => ?_⟩
    rcases List.mem_append.1 he with he | he
    · exact hbefore e he
    · exact hbetween e he

section Prepares

variable {gs : List (ℕ × Generator σ τ)} {s s' : σ} {calls : List (PrepareCall σ)}
  {result : Except Failure (List ((ℕ × Generator σ τ) × Template.Replacements))}
  {prepared : List ((ℕ × Generator σ τ) × Template.Replacements)}

theorem Prepares.linked (h : Prepares gs s calls s' result) :
    Linked PrepareCall.given PrepareCall.left s calls s' := by
  induction h with
  | done => rfl
  | fail _ => exact ⟨rfl, rfl⟩
  | next _ _ ih => exact ⟨rfl, ih⟩

/-- The generators are called from the first one on. -/
theorem Prepares.numbers (h : Prepares gs s calls s' result) :
    calls.map (·.generator) <+: gs.map (·.1) := by
  induction h with
  | done => exact List.prefix_refl _
  | fail _ => exact (List.prefix_cons_inj _).2 List.nil_prefix
  | next _ _ ih => exact (List.prefix_cons_inj _).2 ih

theorem Prepares.endsWith (h : Prepares gs s calls s' result) :
    EndsWith (calls.map fun c => c.result.map fun _ => ()) (result.map fun _ => ()) := by
  induction h with
  | done => simp [EndsWith, Except.map]
  | fail _ => exact ⟨[], rfl, by simp⟩
  | @next _ _ _ _ _ _ _ _ result _ _ ih =>
    have hall := EndsWith.append [.ok ()] (by simp) ih
    cases result with
    | error f => exact hall
    | ok others => exact hall

/-- Every call is a call of the generator with its number. -/
theorem Prepares.genuine (h : Prepares gs s calls s' result) :
    ∀ c ∈ calls, ∃ g, (c.generator, g) ∈ gs ∧ g.prepare c.given = (c.left, c.result) := by
  induction h with
  | done => simp
  | fail hback =>
    intro c hc
    rw [List.mem_singleton.1 hc]
    exact ⟨_, by simp, hback⟩
  | next hback _ ih =>
    intro c hc
    rcases List.mem_cons.1 hc with rfl | hc
    · exact ⟨_, by simp, hback⟩
    · obtain ⟨g, hg, hcall⟩ := ih c hc
      exact ⟨g, by simp [hg], hcall⟩

/-- When all calls succeed, every generator has been called, and the output kept for it is the one
its own call gave back. -/
theorem Prepares.complete (h : Prepares gs s calls s' (.ok prepared)) :
    calls.map (·.generator) = gs.map (·.1) ∧ prepared.map (·.1) = gs ∧
      ∀ x ∈ prepared, ∃ c ∈ calls, c.generator = x.1.1 ∧ c.result = .ok x.2 := by
  generalize hresult : Except.ok prepared = result at h
  induction h generalizing prepared with
  | done =>
    cases hresult
    exact ⟨rfl, rfl, by simp⟩
  | fail _ => cases hresult
  | @next i g rest s s' s'' output calls result hback _ ih =>
    cases result with
    | error f => cases hresult
    | ok others =>
      cases hresult
      obtain ⟨hnumbers, hprepared, houtput⟩ := ih rfl
      refine ⟨?_, ?_, ?_⟩
      · rw [List.map_cons, List.map_cons, hnumbers]
      · rw [List.map_cons, hprepared]
      · intro x hx
        rcases List.mem_cons.1 hx with rfl | hx
        · exact ⟨⟨i, s, s', .ok output⟩, by simp, rfl, rfl⟩
        · obtain ⟨c, hc, hcall⟩ := houtput x hx
          exact ⟨c, by simp [hc], hcall⟩

end Prepares

/-! ### The calls of the second phases -/

/-- The second phases of prepared generators, all in the state `s`: the calls, the results they
leave, and how the last call ended. -/
inductive Generates (s : σ × List (PrepareCall σ)) :
    List ((ℕ × Generator σ τ) × Template.Replacements) → τ → List (GenerateCall σ τ) → τ →
      Except Failure Unit → Prop
  | done {t : τ} : Generates s [] t [] t (.ok ())
  | fail {i : ℕ} {g : Generator σ τ} {output : Template.Replacements}
      {rest : List ((ℕ × Generator σ τ) × Template.Replacements)} {t t' : τ} {f : Failure} :
      g.generate s.1 output t = (t', .error f) →
      Generates s (((i, g), output) :: rest) t [⟨i, s, output, t, t', .error f⟩] t' (.error f)
  | next {i : ℕ} {g : Generator σ τ} {output : Template.Replacements}
      {rest : List ((ℕ × Generator σ τ) × Template.Replacements)} {t t' t'' : τ}
      {calls : List (GenerateCall σ τ)} {result : Except Failure Unit} :
      g.generate s.1 output t = (t', .ok ()) → Generates s rest t' calls t'' result →
      Generates s (((i, g), output) :: rest) t (⟨i, s, output, t, t', .ok ()⟩ :: calls) t'' result

section Generates

variable {s : σ × List (PrepareCall σ)} {t t' : τ} {calls : List (GenerateCall σ τ)}
  {prepared : List ((ℕ × Generator σ τ) × Template.Replacements)} {result : Except Failure Unit}

theorem generateAll_watched (s : σ × List (PrepareCall σ))
    (prepared : List ((ℕ × Generator σ τ) × Template.Replacements)) (t : τ)
    (log : List (GenerateCall σ τ)) :
    ∃ calls t' result, Generates s prepared t calls t' result ∧
      generateAll s (prepared.map fun x => (x.1.2.watched x.1.1, x.2)) (t, log) =
        ((t', log ++ calls), result) := by
  induction prepared generalizing t log with
  | nil => exact ⟨[], t, .ok (), .done, by simp [generateAll]⟩
  | cons x prepared ih =>
    obtain ⟨⟨i, g⟩, output⟩ := x
    cases hback : g.generate s.1 output t with
    | mk t' result =>
      cases result with
      | error f =>
        refine ⟨_, t', .error f, .fail hback, ?_⟩
        simp only [List.map_cons, generateAll, generate_watched i log hback]
      | ok _ =>
        obtain ⟨calls, t'', result, hrest, hrun⟩ := ih t' (log ++ [⟨i, s, output, t, t', .ok ()⟩])
        rw [List.append_assoc, List.singleton_append] at hrun
        refine ⟨_, t'', result, .next hback hrest, ?_⟩
        simp only [List.map_cons, generateAll, generate_watched i log hback, hrun]

theorem Generates.generateAll_eq (h : Generates s prepared t calls t' result) :
    generateAll s.1 (prepared.map fun x => (x.1.2, x.2)) t = (t', result) := by
  induction h with
  | done => rfl
  | fail hback => simp only [List.map_cons, generateAll, hback]
  | next hback _ ih => simp only [List.map_cons, generateAll, hback, ih]

theorem Generates.linked (h : Generates s prepared t calls t' result) :
    Linked GenerateCall.given GenerateCall.left t calls t' := by
  induction h with
  | done => rfl
  | fail _ => exact ⟨rfl, rfl⟩
  | next _ _ ih => exact ⟨rfl, ih⟩

theorem Generates.numbers (h : Generates s prepared t calls t' result) :
    calls.map (·.generator) <+: prepared.map (·.1.1) := by
  induction h with
  | done => exact List.prefix_refl _
  | fail _ => exact (List.prefix_cons_inj _).2 List.nil_prefix
  | next _ _ ih => exact (List.prefix_cons_inj _).2 ih

theorem Generates.numbers_of_ok (h : Generates s prepared t calls t' (.ok ())) :
    calls.map (·.generator) = prepared.map (·.1.1) := by
  generalize hresult : Except.ok () = result at h
  induction h with
  | done => rfl
  | fail _ => cases hresult
  | next _ _ ih => rw [List.map_cons, List.map_cons, ih hresult]

theorem Generates.endsWith (h : Generates s prepared t calls t' result) :
    EndsWith (calls.map (·.result)) result := by
  induction h with
  | done => simp [EndsWith]
  | fail _ => exact ⟨[], rfl, by simp⟩
  | next _ _ ih => exact EndsWith.append [.ok ()] (by simp) ih

/-- Every call is a call of the generator with its number, in the state `s` and with the output kept
for the generator. -/
theorem Generates.genuine (h : Generates s prepared t calls t' result) :
    ∀ c ∈ calls, c.state = s ∧ ∃ g, ((c.generator, g), c.output) ∈ prepared ∧
      g.generate s.1 c.output c.given = (c.left, c.result) := by
  induction h with
  | done => simp
  | fail hback =>
    intro c hc
    rw [List.mem_singleton.1 hc]
    exact ⟨rfl, _, by simp, hback⟩
  | next hback _ ih =>
    intro c hc
    rcases List.mem_cons.1 hc with rfl | hc
    · exact ⟨rfl, _, by simp, hback⟩
    · obtain ⟨hstate, g, hg, hcall⟩ := ih c hc
      exact ⟨hstate, g, by simp [hg], hcall⟩

end Generates

/-! ### The order of the generators -/

namespace Pipeline

variable {p : Pipeline σ τ} {order : List ℕ}

theorem order_eq_ok_iff : p.order = .ok order ↔ p.graph.schedule = .ok order := by
  rw [Pipeline.order]
  cases p.graph.schedule with
  | ok order' => simp
  | error c => simp

/-- The generators in an order, with their numbers. -/
def numbered (p : Pipeline σ τ) (order : List ℕ) : List (ℕ × Generator σ τ) :=
  order.filterMap fun i => p.generators[i]?.map fun g => (i, g)

theorem scheduled_eq (h : p.order = .ok order) :
    p.scheduled = .ok ((p.numbered order).map (·.2)) := by
  rw [scheduled, h, numbered, List.map_filterMap]
  simp [Except.map, Option.map_map, Function.comp_def]

theorem graph_watched (p : Pipeline σ τ) : p.watched.graph = p.graph := by
  have hnames : p.watched.generators.map (·.name) = p.generators.map (·.name) := by
    apply List.ext_getElem?
    intro i
    rw [watched, List.getElem?_map, List.getElem?_mapIdx, List.getElem?_map, Option.map_map]
    rfl
  rw [graph, hnames]
  rfl

theorem scheduled_watched (h : p.order = .ok order) :
    p.watched.scheduled = .ok ((p.numbered order).map fun x => x.2.watched x.1) := by
  have horder : p.watched.order = .ok order := by
    rw [order_eq_ok_iff, graph_watched]
    exact order_eq_ok_iff.1 h
  rw [scheduled_eq horder, numbered, numbered, List.map_filterMap, List.map_filterMap]
  simp [watched, Option.map_map, Function.comp_def]

theorem getElem?_of_mem_numbered {i : ℕ} {g : Generator σ τ} (h : (i, g) ∈ p.numbered order) :
    p.generators[i]? = some g := by
  obtain ⟨j, -, hj⟩ := List.mem_filterMap.1 h
  obtain ⟨g', hg', heq⟩ := Option.map_eq_some_iff.1 hj
  cases heq
  exact hg'

theorem map_fst_numbered (h : ∀ i ∈ order, i < p.generators.length) :
    (p.numbered order).map (·.1) = order := by
  induction order with
  | nil => rfl
  | cons i order ih =>
    have hi := List.getElem?_eq_getElem (h i (by simp))
    have hrest := ih fun j hj => h j (by simp [hj])
    rw [numbered] at hrest ⊢
    simp [hi, hrest]

end Pipeline

/-! ### Whole runs -/

/-- The calls that a run of `p` makes when its generators run in `order`. -/
structure Orderly (p : Pipeline σ τ) (order : List ℕ) (s : σ) (t : τ) (w : WatchedRun σ τ) :
    Prop where
  /-- All first phases come before all second phases, and both come in order. -/
  steps : w.steps <+: order.map .prepare ++ order.map .generate
  /-- Nothing is left out of a run that succeeds. -/
  complete : w.outcome = .ok () → w.steps = order.map .prepare ++ order.map .generate
  /-- A call that fails is the last one, and its failure is the failure of the run. -/
  ending : EndsWith w.endings w.outcome
  /-- The state goes from one first phase to the next. -/
  state : Linked PrepareCall.given PrepareCall.left s w.state.2 w.state.1
  prepare : ∀ c ∈ w.state.2, ∃ g, p.generators[c.generator]? = some g ∧
    g.prepare c.given = (c.left, c.result)
  results : Linked GenerateCall.given GenerateCall.left t w.results.2 w.results.1
  /-- A second phase is given the state that all first phases have left and the output of the first
  phase of its own generator. -/
  generate : ∀ c ∈ w.results.2, c.state = w.state ∧
    (∃ d ∈ w.state.2, d.generator = c.generator ∧ d.result = .ok c.output) ∧
    ∃ g, p.generators[c.generator]? = some g ∧
      g.generate c.state.1 c.output c.given = (c.left, c.result)
  /-- After a first phase that fails there are no results. -/
  untouched : ∀ c ∈ w.state.2, ∀ f, c.result = .error f → w.results = (t, [])

section Orderly

variable {p : Pipeline σ τ} {order : List ℕ} {s s' : σ} {t t' : τ}
  {prepareCalls : List (PrepareCall σ)} {generateCalls : List (GenerateCall σ τ)}
  {prepared : List ((ℕ × Generator σ τ) × Template.Replacements)}

theorem steps_eq (w : WatchedRun σ τ) :
    w.steps = (w.state.2.map (·.generator)).map .prepare
      ++ (w.results.2.map (·.generator)).map .generate := by
  rw [List.map_map, List.map_map]
  rfl

theorem Prepares.genuine_numbered {result : Except Failure _}
    (h : Prepares (p.numbered order) s prepareCalls s' result) :
    ∀ c ∈ prepareCalls, ∃ g, p.generators[c.generator]? = some g ∧
      g.prepare c.given = (c.left, c.result) := by
  intro c hc
  obtain ⟨g, hg, hcall⟩ := h.genuine c hc
  exact ⟨g, Pipeline.getElem?_of_mem_numbered hg, hcall⟩

/-- A run that a first phase has ended. -/
theorem Prepares.orderly_of_error {f : Failure} (hlt : ∀ i ∈ order, i < p.generators.length)
    (h : Prepares (p.numbered order) s prepareCalls s' (.error f)) :
    Orderly p order s t ⟨(s', prepareCalls), (t, []), .error f⟩ := by
  refine ⟨?_, ?_, ?_, h.linked, h.genuine_numbered, rfl, ?_, fun _ _ _ _ => rfl⟩
  · have hnumbers := h.numbers
    rw [Pipeline.map_fst_numbered hlt] at hnumbers
    rw [steps_eq]
    simp only [List.map_nil, List.append_nil]
    exact (hnumbers.map Step.prepare).trans (List.prefix_append _ _)
  · intro hok
    cases hok
  · rw [WatchedRun.endings]
    simp only [List.map_nil, List.append_nil]
    exact h.endsWith
  · intro c hc
    cases hc

/-- A run that gets as far as the second phases. -/
theorem Prepares.orderly_of_ok {result : Except Failure Unit}
    (hlt : ∀ i ∈ order, i < p.generators.length)
    (h : Prepares (p.numbered order) s prepareCalls s' (.ok prepared))
    (hgen : Generates (s', prepareCalls) prepared t generateCalls t' result) :
    Orderly p order s t ⟨(s', prepareCalls), (t', generateCalls), result⟩ := by
  obtain ⟨hnumbers, hprepared, houtput⟩ := h.complete
  have hfirst : prepareCalls.map (·.generator) = order := by
    rw [hnumbers, Pipeline.map_fst_numbered hlt]
  have hsecond : prepared.map (·.1.1) = order := by
    rw [← Pipeline.map_fst_numbered hlt, ← hprepared, List.map_map]
    rfl
  have hgood : ∀ e ∈ prepareCalls.map (fun c => c.result.map fun _ => ()), e = .ok () := h.endsWith
  refine ⟨?_, ?_, ?_, h.linked, h.genuine_numbered, hgen.linked, ?_, ?_⟩
  · have hcalls := hgen.numbers
    rw [hsecond] at hcalls
    rw [steps_eq]
    simp only [hfirst]
    exact (List.prefix_append_right_inj _).2 (hcalls.map Step.generate)
  · intro hok
    cases hok
    rw [steps_eq]
    simp only [hfirst, hgen.numbers_of_ok, hsecond]
  · exact EndsWith.append _ hgood hgen.endsWith
  · intro c hc
    obtain ⟨hstate, g, hg, hcall⟩ := hgen.genuine c hc
    have hmem : (c.generator, g) ∈ p.numbered order := by
      rw [← hprepared]
      exact List.mem_map.2 ⟨_, hg, rfl⟩
    obtain ⟨d, hd, hnumber, hresult⟩ := houtput _ hg
    refine ⟨hstate, ⟨d, hd, hnumber, hresult⟩, g, Pipeline.getElem?_of_mem_numbered hmem, ?_⟩
    rw [hstate]
    exact hcall
  · -- no first phase has failed
    intro c hc f hf
    have hok := hgood _ (List.mem_map.2 ⟨c, hc, rfl⟩)
    rw [hf] at hok
    cases hok

end Orderly

/-- A run whose generators can be ordered makes its calls in this order, and watching it changes
neither its state nor its results nor its outcome. -/
theorem run_orderly {p : Pipeline σ τ} {order : List ℕ} (horder : p.order = .ok order)
    (hlt : ∀ i ∈ order, i < p.generators.length) (s : σ) (t : τ) :
    ∃ w : WatchedRun σ τ, p.watched.run (s, []) (t, []) = w ∧ Orderly p order s t w ∧
      p.run s t = ⟨w.state.1, w.results.1, w.outcome⟩ := by
  obtain ⟨calls, s', result, hprepares, hprepareAll⟩ := prepareAll_watched (p.numbered order) s []
  have hplain := hprepares.prepareAll_eq
  cases result with
  | error f =>
    refine ⟨⟨(s', calls), (t, []), .error f⟩, ?_, hprepares.orderly_of_error hlt, ?_⟩
    · simp [Pipeline.run, Pipeline.scheduled_watched horder, hprepareAll, Except.map]
    · simp [Pipeline.run, Pipeline.scheduled_eq horder, hplain, Except.map]
  | ok prepared =>
    obtain ⟨calls', t', result, hgenerates, hgenerateAll⟩ :=
      generateAll_watched (s', calls) prepared t []
    refine ⟨⟨(s', calls), (t', calls'), result⟩, ?_, hprepares.orderly_of_ok hlt hgenerates, ?_⟩
    · simp [Pipeline.run, Pipeline.scheduled_watched horder, hprepareAll, hgenerateAll, Except.map]
    · simp [Pipeline.run, Pipeline.scheduled_eq horder, hplain, hgenerates.generateAll_eq,
        Except.map]

/-- A run whose generators cannot be ordered makes no call. -/
theorem run_of_order_error {p : Pipeline σ τ} {f : Failure} (h : p.order = .error f) (s : σ)
    (t : τ) : p.run s t = ⟨s, t, .error f⟩ := by
  rw [Pipeline.run, Pipeline.scheduled, h]
  rfl

/-- **The calls of a run.**  If the dependencies have no ring, all generators get an order; the run
makes its calls in this order, all first phases before all second ones, up to the first that fails.
If the dependencies have a ring, there is no call.  Watching the calls does not change the run. -/
theorem run_calls (p : Pipeline σ τ) (hp : p.graph.WellNumbered) (s : σ) (t : τ) :
    (p.graph.Acyclic → ∃ order, p.order = .ok order ∧
      order.Perm (List.range p.generators.length) ∧
      Orderly p order s t (p.watched.run (s, []) (t, []))) ∧
    (¬ p.graph.Acyclic → ∃ f, p.order = .error f ∧
      p.watched.run (s, []) (t, []) = ⟨(s, []), (t, []), .error f⟩) ∧
    p.run s t = ⟨(p.watched.run (s, []) (t, [])).state.1, (p.watched.run (s, []) (t, [])).results.1,
      (p.watched.run (s, []) (t, [])).outcome⟩ := by
  cases horder : p.order with
  | ok order =>
    obtain ⟨harranged, hall⟩ := JobGraph.schedule_arranged hp (Pipeline.order_eq_ok_iff.1 horder)
    have hperm := harranged.perm_range hall
    rw [Pipeline.graph, List.length_map] at hperm
    obtain ⟨w, hw, horderly, hplain⟩ := run_orderly horder
      (fun i hi => List.mem_range.1 (hperm.mem_iff.1 hi)) s t
    rw [hw]
    refine ⟨fun _ => ⟨order, rfl, hperm, horderly⟩, ?_, hplain⟩
    exact fun h => absurd (harranged.acyclic hall) h
  | error f =>
    have hwatched : p.watched.order = .error f := by
      rw [Pipeline.order, Pipeline.graph_watched]
      exact horder
    rw [run_of_order_error hwatched, run_of_order_error horder]
    refine ⟨fun hacyclic => ?_, fun _ => ⟨f, rfl, rfl⟩, rfl⟩
    cases hschedule : p.graph.schedule with
    | ok order =>
      rw [Pipeline.order_eq_ok_iff.2 hschedule] at horder
      cases horder
    | error c =>
      obtain ⟨first, rest, hring, -⟩ := JobGraph.schedule_error hp hschedule
      exact absurd hacyclic hring.not_acyclic

/-- A generator that counts the first phases and lists the second ones, of which it may fail. -/
def probe (name : String) (fails : Bool) : Generator ℕ (List String) where
  name := name
  prepare n := (n + 1, .ok (Dict.ofList [("name", name)]))
  generate n _ t :=
    if fails then (t, .error (.compilation name)) else (t ++ [name, toString n], .ok ())

/-- Three generators that are not listed in the order in which they run; the last of them fails. -/
def probes : Pipeline ℕ (List String) where
  generators := [probe "b" false, probe "a" false, probe "c" true]
  after := [[1], [], [0]]

theorem run_calls_probes :
    probes.graph.WellNumbered ∧ probes.order = .ok [1, 0, 2] ∧
      Orderly probes [1, 0, 2] 0 [] (probes.watched.run (0, []) ([], [])) ∧
      (probes.run 0 []).results = ["a", "3", "b", "3"] := by
  have hnumbered : probes.graph.WellNumbered := by decide
  have horder : probes.order = .ok [1, 0, 2] := by decide +kernel
  obtain ⟨harranged, hall⟩ :=
    JobGraph.schedule_arranged hnumbered (Pipeline.order_eq_ok_iff.1 horder)
  obtain ⟨order, horder', -, horderly⟩ :=
    (run_calls probes hnumbered 0 []).1 (harranged.acyclic hall)
  rw [horder, Except.ok.injEq] at horder'
  subst horder'
  exact ⟨hnumbered, horder, horderly, by decide +kernel⟩

end Boardwright.Generation
