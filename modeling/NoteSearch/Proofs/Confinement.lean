import NoteSearch.Proofs.Errors

/-!
# What a failing backend can do to a search

Whatever comes of the requests for schemas and for trees, it decides neither whether a search
succeeds nor which blocks are found, and a tag whose schema cannot be found is searched for with the
filters as they are written.
-/

namespace NoteSearch
namespace Scripts

/-- The methods of queries and of text searches. -/
def decisive : List String := ["query", "search-blocks-by-text"]

def queries (w : Scripts) : List HttpRequest := w.sent.filter fun r => r.method = "query"

/-- Worlds with the same scripts for the decisive methods. -/
def Matching (w w' : Scripts) : Prop :=
  ∀ method ∈ decisive, w.outcomes method = w'.outcomes method

def SameQueries (w w' : Scripts) : Prop :=
  w.outcomes "query" = w'.outcomes "query" ∧ w.queries = w'.queries

/-- A relation to the worlds that are left by requests of other methods than the decisive ones. -/
structure Quiet (P : Scripts → Scripts → Prop) : Prop where
  refl : ∀ w, P w w
  trans : ∀ {u v w}, P u v → P v w → P u w
  after : ∀ {r : HttpRequest}, r.method ∉ decisive → ∀ w n, P w (w.after r n)

theorem Matching.symm {w w' : Scripts} (h : Matching w w') : Matching w' w :=
  fun method hm => (h method hm).symm

theorem Matching.trans {u v w : Scripts} (h : Matching u v) (h' : Matching v w) : Matching u w :=
  fun method hm => (h method hm).trans (h' method hm)

theorem Matching.after {w w' : Scripts} (h : Matching w w') {r r' : HttpRequest}
    (hr : r.method = r'.method) (n : ℕ) : Matching (w.after r n) (w'.after r' n) := by
  intro method hm
  by_cases heq : method = r.method
  · rw [heq, outcomes_after_self, hr, outcomes_after_self, h r'.method (hr ▸ heq ▸ hm)]
  · rw [outcomes_after_of_ne heq, outcomes_after_of_ne (hr ▸ heq), h method hm]

theorem quiet_matching : Quiet Matching where
  refl w method hm := rfl
  trans := Matching.trans
  after {r} hr w n method hm := by
    have hne : method ≠ r.method := fun heq => hr (heq ▸ hm)
    rw [outcomes_after_of_ne hne]

theorem quiet_sameQueries : Quiet SameQueries where
  refl w := ⟨rfl, rfl⟩
  trans h h' := ⟨h.1.trans h'.1, h.2.trans h'.2⟩
  after {r} hr w n := by
    have hne : "query" ≠ r.method := fun heq => hr (heq ▸ by decide)
    refine ⟨(outcomes_after_of_ne hne w n).symm, ?_⟩
    simp [queries, Scripts.after, hne.symm]

variable (now : Scripts → Nat) (c : HttpClient)

namespace Quiet

variable {P : Scripts → Scripts → Prop}

theorem call (h : Quiet P) {α : Type} {method : String} (hm : method ∉ decisive)
    (args : List Json) (read : Json → Except SearchError α) (w : Scripts) :
    P w (c.call (transport now) method args read w).2 := by
  rw [call_after]
  exact h.after (by rwa [c.method_request]) w _

theorem source (h : Quiet P) : (c.source (transport now)).Keeps P where
  refl := h.refl
  trans := h.trans
  tagId name := h.call now c (by decide) _ _
  block id := h.call now c (by decide) _ _

theorem tree (h : Quiet P) (id : Int) (w : Scripts) :
    P w ((c.backend (transport now)).tree id w).2 :=
  h.call now c (by decide) _ _ w

theorem present (h : Quiet P) (options : ResultOptions) (blocks : List Block) (w : Scripts) :
    P w (options.present (c.backend (transport now)) blocks w).2 := by
  -- Both runs of the lockstep are the same, and only the first is compared with the world before.
  have htree (id : Int) : Lockstep (fun t _ => P w t) (fun _ _ => True)
      ((c.backend (transport now)).tree id) ((c.backend (transport now)).tree id) :=
    fun t _ ht => ⟨trivial, h.trans ht (h.tree now c id t)⟩
  have hblock := Lockstep.presentOne (A := fun _ _ => True) options htree (fun _ => trivial)
    fun _ _ _ _ => trivial
  exact (Lockstep.presentAll hblock (options.limited blocks) w w (h.refl w)).2

end Quiet

theorem matching_call {α : Type} {method : String} (hm : method ∈ decisive)
    (args args' : List Json) (read : Json → Except SearchError α) :
    Lockstep Matching Eq (c.call (transport now) method args read)
      (c.call (transport now) method args' read) := by
  intro w w' h
  have hr : (c.request method args).method = (c.request method args').method := by
    rw [c.method_request, c.method_request]
  simp only [HttpClient.call_eq, invoke_eq, h method hm]
  exact ⟨trivial, h.after hr _⟩

variable (chain : List WireShape) (options : ResultOptions)

/-- Plans that the same shapes can hold are of the same kind to worlds with the same scripts. -/
theorem related_of_sameShapes {plan plan' : Plan} (h : plan.SameShapes plan') :
    plan.Related Matching (c.backend (transport now)) chain plan' := by
  cases h with
  | refuse e => exact .refuse e
  | @submit q q' hq =>
    refine .submit fun shape _ => ?_
    have hshape := hq.reshape? shape
    rcases hx : q.reshape? shape with _ | x <;> rcases hx' : q'.reshape? shape with _ | x' <;>
      rw [hx, hx'] at hshape
    · exact .none
    · cases hshape
    · cases hshape
    · exact .some (matching_call now c (by decide) [x.toJson] [x'.toJson] .ok)
  | find text => exact .find (matching_call now c (by decide) [.text text] [.text text] .ok)

end Scripts

/-- The same block was found, whatever is shown of the blocks below it. -/
def SearchResult.SameHit (r r' : SearchResult) : Prop :=
  { r with fullContent := none } = { r' with fullContent := none }

namespace Scripts

variable (now : Scripts → Nat) (c : HttpClient) (chain : List WireShape) (options : ResultOptions)

/-- Only the scripts of the decisive methods have a say in what is found. -/
theorem agree_of_matching (x : Search) {s s' : Resolving Scripts} (h : Matching s.world s'.world) :
    Agree (SearchResponse.Related SearchResult.SameHit)
      (x.on (c.service (transport now) chain options) s).1
      (x.on (c.service (transport now) chain options) s').1 := by
  have hplan := x.sameShapes_plan (c.source (transport now)) s s'
  have hworld := (quiet_matching.source now c).plan x s
  have hworld' := (quiet_matching.source now c).plan x s'
  have htree (id : Int) : Lockstep Matching (fun _ _ => True)
      ((c.backend (transport now)).tree id) ((c.backend (transport now)).tree id) :=
    fun w w' h => ⟨trivial, (quiet_matching.tree now c id w).symm.trans
      (h.trans (quiet_matching.tree now c id w'))⟩
  rw [Search.on_fst, Search.on_fst]
  apply (Lockstep.carryOut (related_of_sameShapes now c chain hplan) ?_ _ _
    (hworld.symm.trans (h.trans hworld'))).1
  exact Lockstep.presentOne options htree (fun _ => rfl) (fun _ _ _ _ => rfl)

def Reports (outcome : Except SearchError Execution) (answer : Except SearchError SearchResponse) :
    Prop :=
  answer.map (fun r => (r.shapeUsed, r.fallback)) = outcome.map fun e => (some e.used, e.fallback)

/-- A run of a search whose requests for queries are those of one query in the shapes of a chain, as
the script for queries has it, and whose answer tells what came of them. -/
def Submits (q : QueryDescription) (s : Resolving Scripts)
    (run : Except SearchError SearchResponse × Resolving Scripts) : Prop :=
  ∃ requests outcome, run.2.world.queries = s.world.queries ++ requests ∧
    c.Submitted ScriptedOutcome.IsRepeated (s.world.outcomes "query") q chain requests outcome ∧
    Reports outcome run.1

theorem filter_requests {rounds : List Round} :
    (rounds.flatMap (Round.requests c)).filter (fun r => r.method = "query") =
      rounds.flatMap (Round.requests c) := by
  rw [List.filter_eq_self]
  intro r hr
  obtain ⟨round, -, hround⟩ := List.mem_flatMap.mp hr
  rw [List.eq_of_mem_replicate hround]
  exact decide_eq_true (c.method_request "query" [round.query.toJson])

theorem carryOut_submits (q : QueryDescription) (w : Scripts) :
    let run := (c.service (transport now) chain options).carryOut (.submit q) w
    ∃ requests outcome, run.2.queries = w.queries ++ requests ∧
      c.Submitted ScriptedOutcome.IsRepeated (w.outcomes "query") q chain requests outcome ∧
      Reports outcome run.1 := by
  obtain ⟨requests, outcome, t, hrun, hsent, hsubmitted⟩ := execute_submitted now c q chain w
  have hqueries : t.queries = w.queries ++ requests := by
    obtain ⟨submitted, left, -, hrequests, -⟩ := hsubmitted
    rw [queries, hsent, List.filter_append, hrequests, filter_requests]
    rfl
  have hexecute : Cascade.execute (c.service (transport now) chain options).backend q
      (c.service (transport now) chain options).chain w = (outcome, t) := hrun
  simp only [SearchService.carryOut, bind_apply, hexecute]
  refine ⟨requests, outcome, ?_, hsubmitted, ?_⟩
  · cases outcome with
    | error e => exact hqueries
    | ok execution =>
      have hpresent := quiet_sameQueries.present now c options execution.blocks t
      exact hpresent.2.symm.trans hqueries
  · cases outcome with
    | error e => rfl
    | ok execution => rfl

theorem submits_of_plan {x : Search} {s : Resolving Scripts} {q : QueryDescription}
    (h : (x.plan (c.source (transport now)) s).1 = .submit q) :
    Submits c chain q s (x.on (c.service (transport now) chain options) s) := by
  obtain ⟨hscript, hqueries⟩ := (quiet_sameQueries.source now c).plan x s
  have hon : x.on (c.service (transport now) chain options) s =
      Resolving.outside ((c.service (transport now) chain options).carryOut (.submit q))
        (x.plan (c.source (transport now)) s).2 := by
    rw [← h, Search.on_eq, bind_apply]
    rfl
  rw [hon, Submits, hscript, hqueries]
  exact carryOut_submits now c chain options q (x.plan (c.source (transport now)) s).2.world

/-- How little a failing backend does to the searches of a service over a client. -/
structure Confined (service : SearchService Scripts) (s : Resolving Scripts) : Prop where
  /-- A search fails with an error of its queries, or because there is nothing to submit. -/
  error : ∀ (x : Search) (e : SearchError), (x.on service s).1 = .error e →
    e.IsRemote ∨ ∃ fault, e = .invalidQuery fault
  /-- With the standard chain there is nothing to submit only if nothing is asked for, and then no
  request is sent. -/
  invalid : service.chain = Cascade.standard → ∀ (x : Search) (fault : QueryFault),
    (x.on service s).1 = .error (.invalidQuery fault) → x.IsVoid ∧ (x.on service s).2 = s
  /-- Requests for schemas and for trees have no say in what is found. -/
  found : ∀ (x : Search) (s' : Resolving Scripts), Matching s.world s'.world →
    Agree (SearchResponse.Related SearchResult.SameHit) (x.on service s).1 (x.on service s').1
  /-- The filters of a tag are submitted as they are written if its schema cannot be found. -/
  byTag : ∀ tag filters options, (∃ e, (service.tagSchema tag s).1 = .error e) →
    Submits c service.chain (.ofTag tag filters options) s
      (service.searchByTag tag filters options s)
  /-- So are those of the tags among some conditions, each of which is looked up at its turn. -/
  advanced : ∀ conditions mode options, conditions ≠ [] →
    let enhanced := (Resolving.enhanceConditions service.source conditions s).1
    (∃ q, QueryDescription.ofConditions enhanced mode options = .ok q ∧
      Submits c service.chain q s (service.searchAdvanced conditions mode options s)) ∧
    enhanced.length = conditions.length ∧
    ∀ (i : Nat) (condition : Condition), conditions[i]? = some condition →
      (∀ tag filters, condition = .tag tag filters → ∃ e,
        (service.tagSchema tag
          (Resolving.enhanceConditions service.source (conditions.take i) s).2).1 = .error e) →
      enhanced[i]? = some condition

/-- Whatever the scripts of its methods are, a backend behind a client confines its failures. -/
theorem search_confined (s : Resolving Scripts) :
    Confined c (c.service (transport now) chain options) s where
  error x e h := by
    by_cases hvoid : x.IsVoid
    · obtain ⟨fault, hon⟩ := Search.on_of_isVoid hvoid (c.service (transport now) chain options) s
      rw [hon] at h
      cases h
      exact .inr ⟨fault, rfl⟩
    · rcases HttpClient.error_of_search c (transport now) hvoid h with hremote | ⟨hinvalid, -⟩
      · exact .inl hremote
      · exact .inr ⟨_, hinvalid⟩
  invalid hchain x fault h := by
    have hstandard : chain = .current :: [.legacySingle, .directTag] := hchain
    by_cases hvoid : x.IsVoid
    · obtain ⟨_, hon⟩ := Search.on_of_isVoid hvoid (c.service (transport now) chain options) s
      exact ⟨hvoid, by rw [hon]⟩
    · rcases HttpClient.error_of_search c (transport now) hvoid h with hremote | ⟨-, q, hnone⟩
      · exact absurd hremote (SearchError.not_isRemote_invalidQuery fault)
      · rw [hstandard, Cascade.applicable_current] at hnone
        cases hnone
  found x s' h := agree_of_matching now c chain options x h
  byTag tag filters query h := by
    obtain ⟨e, he⟩ := h
    have hplan : ((Search.byTag tag filters query).plan (c.source (transport now)) s).1 =
        .submit (.ofTag tag filters query) :=
      congrArg (fun written => Plan.submit (.ofTag tag written query))
        (Resolving.enhanceFilters_of_error he filters)
    exact submits_of_plan now c chain options hplan
  advanced conditions mode query hne := by
    have hlength := Resolving.length_enhanceConditions (c.source (transport now)) conditions s
    refine ⟨?_, hlength, fun i condition hi h => Resolving.enhanceConditions_of_error hi h⟩
    have hnonempty :
        (Resolving.enhanceConditions (c.source (transport now)) conditions s).1 ≠ [] := by
      rwa [← List.length_pos_iff, hlength, List.length_pos_iff]
    obtain ⟨q, hq⟩ := QueryDescription.exists_ofConditions hnonempty mode query
    have hplan : ((Search.advanced conditions mode query).plan (c.source (transport now)) s).1 =
        .submit q := congrArg Plan.ofCompiled hq
    exact ⟨q, hq, submits_of_plan now c chain options hplan⟩

end Scripts
end NoteSearch
