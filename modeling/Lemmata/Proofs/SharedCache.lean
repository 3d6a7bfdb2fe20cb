import Lemmata.Engine
import Lemmata.Proofs.Locality
import Lemmata.Proofs.Runnable

/-!
Engines that share a cache. Whatever is asked of them in whatever order, an engine gives the result
that it would give without a cache. This rests on what the entries of the cache are: each one was put
there by an engine that verified a theorem, and a theorem with the same fingerprint is the same one,
with the same statements before it.
-/

set_option autoImplicit false

namespace Lemmata

inductive Request where
  | create (table : Table) (rules : List (String × Severity))
  | run (engine now : Nat) (label : String)
  | inspect (engine : Nat) (label : String) (step : Int)
  | ignoreRule (engine : Nat) (rule : String)
  | ignoreLabel (engine : Nat) (label : String)
  | invalidate
  | limitAge (maxAge : Int)
  | reopen

structure Service where
  engines : List Engine := []
  ledger : Ledger := { cache := some {} }

structure Query where
  engine : Engine
  now : Nat
  label : String
  ledger : Ledger

namespace Service

def onCache (service : Service) (change : Cache → Cache) : Service :=
  { service with ledger := { service.ledger with cache := service.ledger.cache.map change } }

def perform (service : Service) : Request → Service
  | .create table rules =>
      { service with engines := service.engines ++ [(Engine.ofTable table).applyRules rules] }
  | .run engine now label =>
      match service.engines[engine]? with
      | some found => { service with ledger := (found.run now label service.ledger).2 }
      | none => service
  | .inspect _ _ _ => service
  | .ignoreRule engine rule =>
      { service with engines := service.engines.modify engine (·.ignoreRule rule) }
  | .ignoreLabel engine label =>
      { service with engines := service.engines.modify engine (·.ignoreLabel label) }
  | .invalidate => service.onCache Cache.invalidate
  | .limitAge maxAge => service.onCache fun cache => { cache with maxAge }
  | .reopen => service.onCache Cache.reopen

def asked (service : Service) : Request → List Query
  | .run engine now label =>
      (service.engines[engine]?.map fun found => ⟨found, now, label, service.ledger⟩).toList
  | _ => []

def queries (service : Service) : List Request → List Query
  | [] => []
  | request :: rest => service.asked request ++ (service.perform request).queries rest

end Service

namespace Query

def answer (query : Query) : Except EngineError Result :=
  (query.engine.run query.now query.label query.ledger).1

def direct (query : Query) : Except EngineError Result :=
  (query.engine.run query.now query.label {}).1

def Served (query : Query) : Prop :=
  ∃ cache s entry, query.ledger.cache = some cache ∧ query.engine.findTheorem query.label = .ok s ∧
    cache.entries.find? (·.isFor query.engine.database query.label) = some entry ∧
    entry.fingerprint = query.engine.fingerprintOf s ∧ entry.isExpired cache.maxAge query.now = false

-- The two queries are for one label in one database, and the fingerprints are the same.
def Collides (query other : Query) (s twin : Statement) : Prop :=
  query.label = other.label ∧ query.engine.database = other.engine.database ∧
    query.engine.findTheorem query.label = .ok s ∧ other.engine.findTheorem other.label = .ok twin ∧
    query.engine.fingerprintOf s = other.engine.fingerprintOf twin

end Query

def Issue.brief (issue : Issue) : String × Int × Severity := (issue.rule, issue.step, issue.severity)

structure Result.Agrees (result plain : Result) : Prop where
  verdict : result.verdict = plain.verdict
  steps : result.steps = plain.steps
  suppressed : result.suppressed = plain.suppressed
  issues : result.issues.map Issue.brief = plain.issues.map Issue.brief

structure Query.Transparent (query : Query) : Prop where
  error : ∀ error, query.answer = .error error ↔ query.direct = .error error
  result : ∀ result, query.answer = .ok result → ∃ plain, query.direct = .ok plain ∧ result.Agrees plain
  cached : ∀ result, query.answer = .ok result → (result.cached = true ↔ query.Served)
  verified : ∀ result, query.answer = .ok result → (result.cached = false ↔ query.direct = .ok result)

namespace Cache

variable {cache updated : Cache} {now : Nat} {database label fingerprint : String} {result : Result}

theorem fetch_some :
    cache.fetch now database label fingerprint = some result ↔
      ∃ entry, cache.entries.find? (·.isFor database label) = some entry ∧
        entry.fingerprint = fingerprint ∧ entry.isExpired cache.maxAge now = false ∧
        result = { entry.result with cached := true } := by
  unfold fetch
  cases cache.entries.find? (·.isFor database label) with
  | none => simp
  | some entry =>
      dsimp only
      by_cases stale : (entry.isExpired cache.maxAge now || entry.fingerprint != fingerprint) = true
      · rw [if_pos stale]
        simp only [Bool.or_eq_true, bne_iff_ne] at stale
        grind
      · rw [if_neg stale]
        simp only [Bool.or_eq_true, bne_iff_ne, ne_eq, not_or, Bool.not_eq_true, not_not] at stale
        grind

theorem store_entries (stored : cache.store now database label fingerprint result = .ok updated)
    (entry : CacheEntry) (member : entry ∈ updated.entries) :
    entry = ⟨database, label, fingerprint, result, now⟩ ∨ entry ∈ cache.entries := by
  unfold store at stored
  split at stored
  · cases stored
  · split at stored
    · cases stored
    · split at stored
      · cases stored
      · cases stored
        rcases List.mem_cons.mp member with new | old
        · exact Or.inl new
        · exact Or.inr (List.mem_of_mem_filter old)

end Cache

theorem fingerprint_check (digest other : String) (check otherCheck : Bool)
    (same : fingerprint digest check = fingerprint other otherCheck) : check = otherCheck := by
  have reversed := congrArg (fun text => text.toList.reverse) same
  cases check <;> cases otherCheck <;> simp [fingerprint] at reversed ⊢

namespace Engine

variable {engine : Engine} {label : String} {s : Statement}

theorem find_theorem_ok (found : engine.findTheorem label = .ok s) :
    engine.table.lookup label = some s ∧ s ∈ engine.table.theorems := by
  unfold findTheorem at found
  split at found
  · cases found
  · rename_i other present
    by_cases proved : other.kind = .proved
    · rw [if_pos proved] at found
      cases found
      obtain ⟨member, _⟩ := engine.table.lookup_some label s present
      exact ⟨present, List.mem_filter.mpr ⟨member, by simp [proved]⟩⟩
    · rw [if_neg proved] at found
      cases found

theorem inspect_found (found : engine.findTheorem label = .ok s) (step : Int) (run : Run)
    (verified : verify engine.table engine.checkDisjoint step s = .ok run) :
    engine.inspect label step = .ok run := by
  simp only [inspect, found, bind, Except.bind, verified, pure, Except.pure]

theorem run_missing (error : EngineError) (missing : engine.findTheorem label = .error error) (now : Nat)
    (ledger : Ledger) : engine.run now label ledger = (.error error, ledger) := by
  simp only [run, missing]

def remember (engine : Engine) (now : Nat) (label : String) (s : Statement) (run : Run) (cache : Cache) :
    Cache :=
  match cache.store now engine.database label (engine.fingerprintOf s) run.result with
  | .ok updated => updated
  | .error _ => cache

theorem run_found (found : engine.findTheorem label = .ok s) (now : Nat) (ledger : Ledger) (run : Run)
    (verified : verify engine.table engine.checkDisjoint (-1) s = .ok run) :
    engine.run now label ledger =
      match ledger.cache.bind fun cache => cache.fetch now engine.database label (engine.fingerprintOf s) with
      | some result => (.ok result, { ledger with metrics := ledger.metrics.observeCached result })
      | none => (.ok run.result, {
          cache := ledger.cache.map (engine.remember now label s run)
          metrics := ledger.metrics.observeRun run }) := by
  simp only [Engine.run, found, inspect_found found (-1) run verified]
  rfl

theorem remember_entries (now : Nat) (run : Run) (cache : Cache) (entry : CacheEntry)
    (member : entry ∈ (engine.remember now label s run cache).entries) :
    entry = ⟨engine.database, label, engine.fingerprintOf s, run.result, now⟩ ∨ entry ∈ cache.entries := by
  unfold remember at member
  split at member
  · rename_i stored
    exact Cache.store_entries stored entry member
  · exact Or.inr member

theorem ignore_rule_table (engine : Engine) (rule : String) :
    (engine.ignoreRule rule).table = engine.table := by
  unfold ignoreRule
  split <;> rfl

theorem apply_rules_table (engine : Engine) (rules : List (String × Severity)) :
    (engine.applyRules rules).table = engine.table := by
  induction rules generalizing engine with
  | nil => rfl
  | cons first rest ih =>
      obtain ⟨rule, severity⟩ := first
      rw [applyRules, List.foldl_cons]
      refine (ih _).trans ?_
      by_cases off : severity = .off
      · simp only [if_pos off, ignore_rule_table]
      · simp only [if_neg off]

end Engine

def Table.Built (t : Table) : Prop := ∃ name declarations, Table.build name declarations = .ok t

theorem Table.Built.coherent {t : Table} (built : t.Built) : t.Coherent := by
  obtain ⟨name, declarations, accepted⟩ := built
  exact Table.build_coherent name declarations t accepted

theorem Table.Built.ordered {t : Table} (built : t.Built) : t.Ordered := by
  obtain ⟨name, declarations, accepted⟩ := built
  exact Table.build_ordered name declarations t accepted

-- The entry holds what verifying the theorem of the query has shown.
def Query.Recorded (query : Query) (entry : CacheEntry) : Prop :=
  ∃ s run, query.engine.findTheorem query.label = .ok s ∧
    verify query.engine.table query.engine.checkDisjoint (-1) s = .ok run ∧
    entry = ⟨query.engine.database, query.label, query.engine.fingerprintOf s, run.result, entry.createdAt⟩

def Ledger.RecordedBy (queries : List Query) (ledger : Ledger) : Prop :=
  ∀ cache, ledger.cache = some cache → ∀ entry ∈ cache.entries, ∃ query ∈ queries, query.Recorded entry

structure Service.Sound (queries : List Query) (service : Service) : Prop where
  engines : ∀ engine ∈ service.engines, engine.table.Built
  recorded : service.ledger.RecordedBy queries

section Recording

variable {queries more : List Query} {service : Service}

theorem Ledger.RecordedBy.mono {ledger : Ledger} (recorded : ledger.RecordedBy queries)
    (kept : ∀ query ∈ queries, query ∈ more) : ledger.RecordedBy more := by
  intro cache held entry member
  obtain ⟨query, present, own⟩ := recorded cache held entry member
  exact ⟨query, kept query present, own⟩

theorem Service.Sound.mono (sound : service.Sound queries) (kept : ∀ query ∈ queries, query ∈ more) :
    service.Sound more :=
  ⟨sound.engines, sound.recorded.mono kept⟩

theorem Service.Sound.on_cache (sound : service.Sound queries) (change : Cache → Cache)
    (fewer : ∀ cache, ∀ entry ∈ (change cache).entries, entry ∈ cache.entries) :
    (service.onCache change).Sound queries := by
  refine ⟨sound.engines, ?_⟩
  intro changed held entry member
  obtain ⟨cache, before, rfl⟩ := Option.map_eq_some_iff.mp held
  exact sound.recorded cache before entry (fewer cache entry member)

theorem Service.Sound.on_engine (sound : service.Sound queries) (position : Nat) (change : Engine → Engine)
    (same : ∀ engine, (change engine).table = engine.table) :
    { service with engines := service.engines.modify position change }.Sound queries := by
  refine ⟨?_, sound.recorded⟩
  intro engine member
  obtain ⟨index, found⟩ := List.mem_iff_getElem?.mp member
  rw [List.getElem?_modify] at found
  obtain ⟨before, old, rfl⟩ := Option.map_eq_some_iff.mp found
  have built := sound.engines before (List.mem_of_getElem? old)
  split
  · rwa [same]
  · exact built

theorem Engine.run_recorded (engine : Engine) (built : engine.table.Built) (now : Nat) (label : String)
    (ledger : Ledger) (recorded : ledger.RecordedBy queries) :
    (engine.run now label ledger).2.RecordedBy (queries ++ [⟨engine, now, label, ledger⟩]) := by
  have kept := recorded.mono fun query present => List.mem_append_left [⟨engine, now, label, ledger⟩] present
  cases found : engine.findTheorem label with
  | error error =>
      rw [run_missing error found]
      exact kept
  | ok s =>
      obtain ⟨_, proved⟩ := find_theorem_ok found
      obtain ⟨run, verified⟩ := verify_returns built.coherent proved engine.checkDisjoint (-1)
      rw [run_found found now ledger run verified]
      split
      · exact kept
      · intro changed held entry member
        obtain ⟨cache, before, rfl⟩ := Option.map_eq_some_iff.mp held
        rcases remember_entries now run cache entry member with rfl | old
        · exact ⟨_, List.mem_append_right _ (List.mem_singleton_self _), s, run, found, verified, rfl⟩
        · exact kept cache before entry old

theorem Service.perform_sound (sound : service.Sound queries) (request : Request)
    (built : ∀ table rules, request = .create table rules → table.Built) :
    (service.perform request).Sound (queries ++ service.asked request) := by
  have kept := sound.mono fun query present => List.mem_append_left (service.asked request) present
  cases request with
  | create table rules =>
      refine ⟨?_, kept.recorded⟩
      intro engine member
      rcases List.mem_append.mp member with old | new
      · exact sound.engines engine old
      · rw [List.mem_singleton.mp new, Engine.apply_rules_table]
        exact built table rules rfl
  | run engine now label =>
      simp only [perform, asked]
      cases found : service.engines[engine]? with
      | none => simpa using sound
      | some known =>
          have reliable := sound.engines known (List.mem_of_getElem? found)
          exact ⟨sound.engines, known.run_recorded reliable now label service.ledger sound.recorded⟩
  | inspect engine label step => exact kept
  | ignoreRule engine rule => exact kept.on_engine engine _ fun engine => engine.ignore_rule_table rule
  | ignoreLabel engine label => exact kept.on_engine engine _ fun engine => rfl
  | invalidate => exact kept.on_cache _ fun cache entry member => by cases member
  | limitAge maxAge => exact kept.on_cache _ fun cache entry member => member
  | reopen => exact kept.on_cache _ fun cache entry member => member

theorem Service.asked_here (request : Request) (query : Query) (member : query ∈ service.asked request) :
    query.engine ∈ service.engines ∧ query.ledger = service.ledger := by
  cases request with
  | run engine now label =>
      obtain ⟨found, known, rfl⟩ := Option.map_eq_some_iff.mp (Option.mem_toList.mp member)
      exact ⟨List.mem_of_getElem? known, rfl⟩
  | _ => cases member

theorem Service.queries_recorded (requests : List Request) (sound : service.Sound queries)
    (built : ∀ table rules, .create table rules ∈ requests → table.Built) :
    ∀ query ∈ service.queries requests, query.engine.table.Built ∧
      query.ledger.RecordedBy (queries ++ service.queries requests) := by
  induction requests generalizing service queries with
  | nil => simp [Service.queries]
  | cons request rest ih =>
      intro query member
      rw [Service.queries] at member ⊢
      rcases List.mem_append.mp member with here | later
      · obtain ⟨known, ledger⟩ := service.asked_here request query here
        rw [ledger]
        exact ⟨sound.engines query.engine known,
          sound.recorded.mono fun query present => List.mem_append_left _ present⟩
      · have next := service.perform_sound sound request fun table rules same =>
          built table rules (same ▸ List.mem_cons_self)
        have behind := ih next (fun table rules present => built table rules (List.mem_cons_of_mem _ present))
          query later
        rwa [List.append_assoc] at behind

end Recording

section Transparency

variable {query other : Query} {s twin : Statement}

theorem Query.Collides.same (collides : other.Collides query s twin)
    (agrees : other.engine.table.AgreesUpTo query.engine.table s.id) (built : other.engine.table.Built)
    (queryBuilt : query.engine.table.Built) : twin = s := by
  obtain ⟨label, _, found, twinFound, _⟩ := collides
  obtain ⟨present, _⟩ := Engine.find_theorem_ok found
  obtain ⟨twinPresent, _⟩ := Engine.find_theorem_ok twinFound
  obtain ⟨member, own, nonempty⟩ := Table.lookup_some _ _ _ present
  have placed : query.engine.table.statement s.id = some s :=
    (agrees.statements s.id (Int.le_refl _)).symm.trans (built.coherent.statement_of_member s member)
  have shared := queryBuilt.coherent.lookup_label s (query.engine.table.member_of_statement s.id s placed)
    (own ▸ nonempty)
  rw [own, label, twinPresent] at shared
  exact Option.some.inj shared

theorem Query.Collides.outline (collides : other.Collides query s twin)
    (agrees : other.engine.table.AgreesUpTo query.engine.table s.id) (built : other.engine.table.Built)
    (queryBuilt : query.engine.table.Built) (run twinRun : Run)
    (verified : verify other.engine.table other.engine.checkDisjoint (-1) s = .ok run)
    (twinVerified : verify query.engine.table query.engine.checkDisjoint (-1) twin = .ok twinRun) :
    run.outline = twinRun.outline := by
  have same := collides.same agrees built queryBuilt
  obtain ⟨_, _, found, _, fingerprints⟩ := collides
  have check := fingerprint_check _ _ _ _ fingerprints
  obtain ⟨_, proved⟩ := Engine.find_theorem_ok found
  obtain ⟨first, second, firstRun, secondRun, alike⟩ := verify_alike agrees built.coherent built.ordered
    queryBuilt.coherent proved other.engine.checkDisjoint (-1)
  rw [verified] at firstRun
  rw [check, ← same, twinVerified] at secondRun
  cases firstRun
  cases secondRun
  exact alike

theorem Run.result_agrees (run twin : Run) (same : run.outline = twin.outline) :
    run.result.Agrees twin.result := by
  obtain ⟨_, proof, _, _, verdict, issues, _, errors, _⟩ := (Run.outline_same run twin).mp same
  have brief := congrArg (List.map Issue.brief) issues
  rw [List.map_map, List.map_map] at brief
  exact ⟨verdict, by simp only [Run.result, proof], by simp only [Run.result, Run.suppressed, errors], brief⟩

namespace Query

def stored (query : Query) (s : Statement) : Option Result :=
  query.ledger.cache.bind fun cache =>
    cache.fetch query.now query.engine.database query.label (query.engine.fingerprintOf s)

theorem served_iff (found : query.engine.findTheorem query.label = .ok s) :
    query.Served ↔ ∃ result, query.stored s = some result := by
  constructor
  · rintro ⟨cache, other, entry, held, same, first, own, fresh⟩
    cases found.symm.trans same
    refine ⟨{ entry.result with cached := true }, ?_⟩
    rw [stored, held]
    exact Cache.fetch_some.mpr ⟨entry, first, own, fresh, rfl⟩
  · rintro ⟨result, present⟩
    obtain ⟨cache, held, fetched⟩ := Option.bind_eq_some_iff.mp present
    obtain ⟨entry, first, own, fresh, _⟩ := Cache.fetch_some.mp fetched
    exact ⟨cache, s, entry, held, found, first, own, fresh⟩

theorem stored_recorded (queries : List Query) (recorded : query.ledger.RecordedBy queries)
    (found : query.engine.findTheorem query.label = .ok twin) (result : Result)
    (present : query.stored twin = some result) :
    ∃ other ∈ queries, ∃ s run, other.Collides query s twin ∧
      verify other.engine.table other.engine.checkDisjoint (-1) s = .ok run ∧
      result = { run.result with cached := true } := by
  obtain ⟨cache, held, fetched⟩ := Option.bind_eq_some_iff.mp present
  obtain ⟨entry, first, own, _, rfl⟩ := Cache.fetch_some.mp fetched
  have key : entry.database = query.engine.database ∧ entry.label = query.label := by
    simpa [CacheEntry.isFor] using List.find?_some first
  obtain ⟨other, member, s, run, otherFound, verified, content⟩ :=
    recorded cache held entry (List.mem_of_find?_eq_some first)
  rw [content] at key own
  exact ⟨other, member, s, run, ⟨key.2, key.1, otherFound, found, own⟩, verified, by rw [content]⟩

theorem answer_found (found : query.engine.findTheorem query.label = .ok s) (run : Run)
    (verified : verify query.engine.table query.engine.checkDisjoint (-1) s = .ok run) :
    query.answer = .ok ((query.stored s).getD run.result) := by
  have answered := congrArg Prod.fst (Engine.run_found found query.now query.ledger run verified)
  change query.answer = _ at answered
  rw [answered]
  change _ = Except.ok (Option.getD (query.ledger.cache.bind _) _)
  split <;> rename_i content <;> rw [content] <;> rfl

theorem Transparent.of_answer (result plain : Result) (answered : query.answer = .ok result)
    (direct : query.direct = .ok plain) (agrees : result.Agrees plain)
    (served : result.cached = true ↔ query.Served) (plainly : result.cached = false ↔ result = plain) :
    query.Transparent := by
  refine ⟨?_, ?_, ?_, ?_⟩
  · simp [answered, direct]
  · intro given same
    cases same.symm.trans answered
    exact ⟨plain, direct, agrees⟩
  · intro given same
    cases same.symm.trans answered
    exact served
  · intro given same
    cases same.symm.trans answered
    rw [plainly, direct, Except.ok.injEq, eq_comm]

theorem transparent (queries : List Query) (built : query.engine.table.Built)
    (recorded : query.ledger.RecordedBy queries)
    (faithful : ∀ other ∈ queries, ∀ s twin, other.Collides query s twin →
      other.engine.table.Built ∧ other.engine.table.AgreesUpTo query.engine.table s.id) :
    query.Transparent := by
  cases found : query.engine.findTheorem query.label with
  | error error =>
      have answered := congrArg Prod.fst (Engine.run_missing error found query.now query.ledger)
      have direct := congrArg Prod.fst (Engine.run_missing error found query.now {})
      have same : query.answer = query.direct := answered.trans direct.symm
      refine ⟨fun _ => by rw [same], ?_, ?_, ?_⟩ <;>
        · intro result given
          cases given.symm.trans answered
  | ok twin =>
      obtain ⟨_, proved⟩ := Engine.find_theorem_ok found
      obtain ⟨run, verified⟩ := verify_returns built.coherent proved query.engine.checkDisjoint (-1)
      have direct : query.direct = .ok run.result :=
        congrArg Prod.fst (Engine.run_found found query.now {} run verified)
      have answered := answer_found found run verified
      have served := served_iff found
      cases held : query.stored twin with
      | none =>
          rw [held] at answered served
          refine .of_answer run.result run.result answered direct (run.result_agrees run rfl) ?_ ?_
          · simp [served, Run.result]
          · simp [Run.result]
      | some result =>
          rw [held] at answered served
          obtain ⟨other, member, s, otherRun, collides, otherVerified, rfl⟩ :=
            stored_recorded queries recorded found result held
          obtain ⟨otherBuilt, agrees⟩ := faithful other member s twin collides
          have outlines := collides.outline agrees otherBuilt built otherRun run otherVerified verified
          have alike := otherRun.result_agrees run outlines
          refine .of_answer _ run.result answered direct ?_ ?_ ?_
          · exact ⟨alike.verdict, alike.steps, alike.suppressed, alike.issues⟩
          · simp [served]
          · simp [Run.result]

end Query

end Transparency

theorem Service.sound_initially : ({} : Service).Sound [] := by
  refine ⟨List.forall_mem_nil _, ?_⟩
  intro cache held entry member
  rw [← Option.some.inj held] at member
  cases member

theorem cache_transparent (requests : List Request)
    (built : ∀ table rules, .create table rules ∈ requests → table.Built)
    (faithful : ∀ query ∈ Service.queries {} requests, ∀ other ∈ Service.queries {} requests, ∀ s twin,
      query.Collides other s twin → query.engine.table.AgreesUpTo other.engine.table s.id) :
    ∀ query ∈ Service.queries {} requests, query.Transparent := by
  have reliable := Service.queries_recorded requests Service.sound_initially built
  intro query member
  obtain ⟨known, recorded⟩ := reliable query member
  refine query.transparent _ known recorded ?_
  intro other present s twin collides
  exact ⟨(reliable other present).1, faithful other present query member s twin collides⟩

theorem Table.AgreesUpTo.refl (t : Table) (limit : Int) : t.AgreesUpTo t limit :=
  ⟨fun _ _ => rfl, fun _ _ => rfl⟩

def editedTable : Table := { variantTable with name := "sample" }

theorem edited_built : Table.build "sample" variantDeclarations = .ok editedTable := rfl

theorem edited_agrees : sampleTable.AgreesUpTo editedTable 7 :=
  ⟨variant_agrees.statements, variant_agrees.symbols⟩

-- The first theorem is asked for twice, after the edit, without the check of disjoint variables, and
-- when what is known of it is too old.
def sampleRequests : List Request :=
  [.create sampleTable [], .run 0 1 "repeated", .run 0 2 "repeated",
    .create editedTable [], .run 1 3 "repeated",
    .ignoreRule 1 Rule.disjointViolation, .run 1 4 "repeated",
    .limitAge 5, .run 1 10 "repeated"]

theorem sample_queries (query : Query) (member : query ∈ Service.queries {} sampleRequests) :
    query.label = "repeated" ∧ (query.engine.table = sampleTable ∨ query.engine.table = editedTable) := by
  change query ∈ [_, _, _, _, _] at member
  simp only [List.mem_cons, List.not_mem_nil, or_false] at member
  obtain rfl | rfl | rfl | rfl | rfl := member
  · exact ⟨rfl, Or.inl rfl⟩
  · exact ⟨rfl, Or.inl rfl⟩
  · exact ⟨rfl, Or.inr rfl⟩
  · exact ⟨rfl, Or.inr rfl⟩
  · exact ⟨rfl, Or.inr rfl⟩

theorem cache_transparent_sample :
    ((Service.queries {} sampleRequests).map fun query => query.answer.toOption.map Result.cached) =
      [some false, some true, some true, some false, some false] ∧
    ∀ query ∈ Service.queries {} sampleRequests, query.Transparent := by
  refine ⟨by decide +kernel, cache_transparent sampleRequests ?_ ?_⟩
  · intro table rules created
    simp only [sampleRequests, List.mem_cons, Request.create.injEq, List.not_mem_nil, or_false, false_or,
      reduceCtorEq] at created
    obtain ⟨rfl, _⟩ | ⟨rfl, _⟩ := created
    · exact ⟨_, _, sample_built⟩
    · exact ⟨_, _, edited_built⟩
  · intro query member other otherMember s twin collides
    obtain ⟨_, _, found, _⟩ := collides
    obtain ⟨present, _⟩ := Engine.find_theorem_ok found
    obtain ⟨label, table⟩ := sample_queries query member
    obtain ⟨_, otherTable⟩ := sample_queries other otherMember
    have place : s.id = 7 := by
      rw [label] at present
      rcases table with same | same <;> rw [same] at present <;> cases present <;> rfl
    rw [place]
    rcases table with same | same <;> rcases otherTable with otherSame | otherSame <;>
      rw [same, otherSame]
    · exact .refl _ _
    · exact edited_agrees
    · exact edited_agrees.symm (Table.build_coherent _ _ _ edited_built)
    · exact .refl _ _

end Lemmata
