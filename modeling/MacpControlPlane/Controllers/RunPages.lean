import MacpControlPlane.Controllers.EventPages

/-!
# The run listing (`GET /runs`, `run-manager.service.ts`, `run.repository.ts`)

`listRuns` runs two queries: `list` for the page and `listCount` for the total.  Both build their conditions with
`buildListConditions`, and `listRuns` hands the filters to the second one field by field, without `includeSandbox`.

The total and the pages agree if and only if no sandbox run is asked for and there (`listRuns_consistent_iff`).
-/

namespace MacpControlPlane

namespace RunPages

/-- `ExecutionMode` -/
inductive ExecutionMode where
  | live | sandbox
  deriving DecidableEq

/-- The columns of `runs` that the listing reads.  Timestamps are instants. -/
structure Run where
  id : String
  status : RunStatus
  mode : ExecutionMode
  tags : List String
  /-- `metadata->>'scenarioRef'` -/
  scenarioRef : Option String
  /-- `metadata->>'environment'` -/
  environment : Option String
  createdAt : Int
  updatedAt : Int
  archivedAt : Option Int
  deriving DecidableEq

inductive SortBy where
  | createdAt | updatedAt

inductive SortOrder where
  | asc | desc

/-- The filters of `listCount` and `buildListConditions`. -/
structure CountFilters where
  status : Option RunStatus := none
  tags : Option (List String) := none
  createdAfter : Option String := none
  createdBefore : Option String := none
  includeSandbox : Option Bool := none
  includeArchived : Option Bool := none
  environment : Option String := none
  scenarioRef : Option String := none
  search : Option String := none

/-- The filters of `listRuns` and `list`. -/
structure Filters extends CountFilters where
  limit : Option Nat := none
  offset : Option Nat := none
  sortBy : Option SortBy := none
  sortOrder : Option SortOrder := none

/-- `sortCol` -/
def sortCol (filters : Filters) (r : Run) : Int :=
  match filters.sortBy with
  | some .updatedAt => r.updatedAt
  | _ => r.createdAt

/-- `a` may stand before `b` under `orderFn(sortCol)`. -/
def Before (filters : Filters) (a b : Run) : Prop :=
  match filters.sortOrder with
  | some .asc => sortCol filters a ≤ sortCol filters b
  | _ => sortCol filters b ≤ sortCol filters a

/-- What the queries leave to Postgres: the instant of a `timestamptz` literal, if it is one, `text ILIKE pattern`, the
text of a `jsonb` array of strings, and the order of runs with the same sort key, which may be another one for each
query. -/
structure Database where
  instant : String → Option Int
  ilike : String → String → Bool
  jsonbText : List String → String
  orderBy : Filters → List Run → List Run
  orderBy_perm : ∀ filters rows, (orderBy filters rows).Perm rows
  orderBy_sorted : ∀ filters rows, (orderBy filters rows).Pairwise (Before filters)

variable (db : Database)

/-! ### The queries -/

/-- `%term%` occurs in the id, the scenario, the environment or the tags. -/
def mentions (term : String) (r : Run) : Bool :=
  db.ilike r.id term || r.scenarioRef.any (db.ilike · term) || r.environment.any (db.ilike · term) ||
    db.ilike (db.jsonbText r.tags) term

def buildListConditions (filters : CountFilters) : List (Run → Bool) :=
  (filters.status.map fun status (r : Run) => decide (r.status = status)).toList ++
  ((filters.tags.filter (0 < ·.length)).map fun tags r => tags.all (r.tags.contains ·)).toList ++
  ((present filters.createdAfter).map fun text r => (db.instant text).any (· < r.createdAt)).toList ++
  ((present filters.createdBefore).map fun text r => (db.instant text).any (r.createdAt < ·)).toList ++
  (if filters.includeSandbox.getD false then [] else [fun (r : Run) => decide (r.mode ≠ .sandbox)]) ++
  (if filters.includeArchived.getD false then [] else [fun (r : Run) => r.archivedAt.isNone]) ++
  ((present filters.environment).map fun environment r => decide (r.environment = some environment)).toList ++
  ((present filters.scenarioRef).map fun ref r => r.scenarioRef.any (db.ilike · ("%" ++ ref ++ "%"))).toList ++
  ((present filters.search).map fun search => mentions db ("%" ++ search ++ "%")).toList

/-- The literals that a query casts to `timestamptz`. -/
def literals (filters : CountFilters) : List String :=
  (present filters.createdAfter).toList ++ (present filters.createdBefore).toList

/-- `SELECT … FROM runs WHERE …`; a literal that is no timestamp is an error. -/
def select (rows : List Run) (filters : CountFilters) : Option (List Run) :=
  if (literals filters).all fun text => (db.instant text).isSome then
    some (rows.filter fun r => (buildListConditions db filters).all (· r))
  else none

def list (rows : List Run) (filters : Filters) : Option (List Run) :=
  (select db rows filters.toCountFilters).map fun selected =>
    ((db.orderBy filters selected).drop (filters.offset.getD 0)).take (filters.limit.getD 50)

def listCount (rows : List Run) (filters : CountFilters) : Option Nat :=
  (select db rows filters).map List.length

/-- A page, as the API returns it. -/
structure RunRecordPage where
  data : List Run
  total : Nat
  limit : Nat
  offset : Nat

def listRuns (rows : List Run) (filters : Filters) : Option RunRecordPage := do
  let data ← list db rows filters
  -- `includeSandbox` is not among the fields handed over.
  let total ← listCount db rows
    { status := filters.status
      tags := filters.tags
      createdAfter := filters.createdAfter
      createdBefore := filters.createdBefore
      includeArchived := filters.includeArchived
      environment := filters.environment
      scenarioRef := filters.scenarioRef
      search := filters.search }
  return { data, total, limit := filters.limit.getD 50, offset := filters.offset.getD 0 }

/-! ### What the filters ask for -/

/-- The run passes the filters. -/
structure Matches (filters : CountFilters) (r : Run) : Prop where
  status : ∀ status ∈ filters.status, r.status = status
  tags : ∀ tags ∈ filters.tags, tags ⊆ r.tags
  createdAfter : ∀ text ∈ present filters.createdAfter, ∃ t ∈ db.instant text, t < r.createdAt
  createdBefore : ∀ text ∈ present filters.createdBefore, ∃ t ∈ db.instant text, r.createdAt < t
  live : filters.includeSandbox ≠ some true → r.mode ≠ .sandbox
  unarchived : filters.includeArchived ≠ some true → r.archivedAt = none
  environment : ∀ environment ∈ present filters.environment, r.environment = some environment
  scenarioRef : ∀ ref ∈ present filters.scenarioRef, ∃ text ∈ r.scenarioRef, db.ilike text ("%" ++ ref ++ "%") = true
  search : ∀ search ∈ present filters.search, mentions db ("%" ++ search ++ "%") r = true

variable {db} {rows : List Run} {filters : Filters} {count : CountFilters} {r : Run}

/-- A condition on a filter that is set. -/
theorem all_map_toList {α : Type} {value : Option α} {condition : α → Run → Bool} :
    (value.map condition).toList.all (· r) = true ↔ ∀ a ∈ value, condition a r = true := by
  cases value <;> simp

/-- A condition that a flag lifts. -/
theorem all_unless {flag : Option Bool} {condition : Run → Bool} :
    (if flag.getD false then [] else [condition]).all (· r) = true ↔ (flag ≠ some true → condition r = true) := by
  rcases flag with _ | _ | _ <;> simp

private theorem matches_iff : Matches db count r ↔ (buildListConditions db count).all (· r) = true := by
  have htags : (∀ tags ∈ count.tags.filter (0 < ·.length), tags.all (r.tags.contains ·) = true) ↔
      ∀ tags ∈ count.tags, tags ⊆ r.tags := by
    rcases count.tags with _ | tags
    · simp
    · cases tags <;> simp [Option.filter, List.subset_def]
  unfold buildListConditions
  simp only [List.all_append, Bool.and_eq_true, all_map_toList, all_unless, htags, Option.any_eq_true,
    decide_eq_true_eq, Option.isNone_iff_eq_none]
  constructor
  · rintro ⟨h1, h2, h3, h4, h5, h6, h7, h8, h9⟩
    exact ⟨⟨⟨⟨⟨⟨⟨⟨h1, h2⟩, h3⟩, h4⟩, h5⟩, h6⟩, h7⟩, h8⟩, h9⟩
  · rintro ⟨⟨⟨⟨⟨⟨⟨⟨h1, h2⟩, h3⟩, h4⟩, h5⟩, h6⟩, h7⟩, h8⟩, h9⟩
    exact ⟨h1, h2, h3, h4, h5, h6, h7, h8, h9⟩

instance : Decidable (Matches db count r) := decidable_of_iff _ matches_iff.symm

section Pages

variable (db) (rows) (filters)

/-- The runs that pass the filters. -/
def matching (count : CountFilters) : List Run := rows.filter fun r => Matches db count r

/-- What a client reads that asks for the pages below the total. -/
def pagesBelow (total : Nat) : Option (List RunRecordPage) :=
  (Paging.offsets (filters.limit.getD 50) total).mapM fun offset =>
    listRuns db rows { filters with offset := some offset }

/-- The total is the number of the runs that pass the filters; the pages below it hold each of them once, and none is
empty. -/
def Consistent : Prop :=
  ∃ page ∈ listRuns db rows filters, page.total = (matching db rows filters.toCountFilters).length ∧
    ∃ pages ∈ pagesBelow db rows filters page.total,
      (pages.flatMap (·.data)).Perm (matching db rows filters.toCountFilters) ∧ ∀ page ∈ pages, page.data ≠ []

end Pages

/-! ### The total -/

/-- The filters that reach `listCount`. -/
def counted (filters : Filters) : CountFilters := { filters.toCountFilters with includeSandbox := none }

private theorem matches_counted :
    Matches db (counted filters) r ↔ Matches db filters.toCountFilters r ∧ r.mode ≠ .sandbox := by
  constructor
  · rintro ⟨hstatus, htags, hafter, hbefore, hlive, harchived, henvironment, href, hsearch⟩
    have hmode : r.mode ≠ .sandbox := hlive (fun h => nomatch h)
    exact ⟨⟨hstatus, htags, hafter, hbefore, fun _ => hmode, harchived, henvironment, href, hsearch⟩, hmode⟩
  · rintro ⟨⟨hstatus, htags, hafter, hbefore, -, harchived, henvironment, href, hsearch⟩, hmode⟩
    exact ⟨hstatus, htags, hafter, hbefore, fun _ => hmode, harchived, henvironment, href, hsearch⟩

private theorem mem_matching : r ∈ matching db rows count ↔ r ∈ rows ∧ Matches db count r := by
  simp [matching]

/-- The runs counted are the matching ones that are live. -/
theorem matching_counted :
    matching db rows (counted filters) =
      (matching db rows filters.toCountFilters).filter fun r => r.mode ≠ .sandbox := by
  unfold matching
  rw [List.filter_filter]
  refine List.filter_congr fun r _ => ?_
  rw [Bool.eq_iff_iff]
  simp only [decide_eq_true_eq, Bool.and_eq_true]
  rw [matches_counted, and_comm]

private theorem select_eq (h : ∀ text ∈ literals count, (db.instant text).isSome) :
    select db rows count = some (matching db rows count) := by
  unfold select matching
  rw [if_pos (List.all_eq_true.2 h), Option.some.injEq]
  refine List.filter_congr fun r _ => ?_
  rw [Bool.eq_iff_iff, decide_eq_true_eq, matches_iff]

private theorem literals_of_isSome (h : (listRuns db rows filters).isSome) :
    ∀ text ∈ literals filters.toCountFilters, (db.instant text).isSome := by
  by_contra hliteral
  have hnone : select db rows filters.toCountFilters = none := by
    unfold select
    rw [if_neg fun hall => hliteral (List.all_eq_true.1 hall)]
  simp [listRuns, list, hnone] at h

/-- The page and the total of a request that the database accepts. -/
theorem listRuns_eq (h : ∀ text ∈ literals filters.toCountFilters, (db.instant text).isSome) :
    listRuns db rows filters = some
      { data := ((db.orderBy filters (matching db rows filters.toCountFilters)).drop (filters.offset.getD 0)).take
          (filters.limit.getD 50)
        total := (matching db rows (counted filters)).length
        limit := filters.limit.getD 50
        offset := filters.offset.getD 0 } := by
  have hlist : list db rows filters = some
      (((db.orderBy filters (matching db rows filters.toCountFilters)).drop (filters.offset.getD 0)).take
        (filters.limit.getD 50)) := by
    rw [list, select_eq h]
    rfl
  have hcount : listCount db rows (counted filters) = some (matching db rows (counted filters)).length := by
    have hliterals : ∀ text ∈ literals (counted filters), (db.instant text).isSome := h
    rw [listCount, select_eq hliterals]
    rfl
  unfold listRuns
  change (list db rows filters).bind (fun _ => (listCount db rows (counted filters)).bind fun _ => some _) = _
  rw [hlist, hcount]
  rfl

/-- The total is right when no matching run is a sandbox run. -/
theorem total_eq_iff : (matching db rows (counted filters)).length = (matching db rows filters.toCountFilters).length ↔
    (filters.includeSandbox = some true → ∀ r ∈ rows, Matches db filters.toCountFilters r → r.mode ≠ .sandbox) := by
  rw [matching_counted, List.length_filter_eq_length_iff]
  constructor
  · intro h _ r hr hmatches
    exact of_decide_eq_true (h r (mem_matching.2 ⟨hr, hmatches⟩))
  · intro h r hr
    obtain ⟨hr, hmatches⟩ := mem_matching.1 hr
    refine decide_eq_true ?_
    by_cases hinclude : filters.includeSandbox = some true
    · exact h hinclude r hr hmatches
    · exact hmatches.live hinclude

/-! ### The pages -/

private theorem before_antisymm {a b : Run} (hab : Before filters a b) (hba : Before filters b a) :
    sortCol filters a = sortCol filters b := by
  unfold Before at hab hba
  split at hab <;> split at hba <;> first | omega | simp_all

/-- With distinct sort keys, the offset has no part in the order. -/
theorem orderBy_offset (hkeys : (rows.map (sortCol filters)).Nodup) (offset : Nat) :
    db.orderBy { filters with offset := some offset } (matching db rows filters.toCountFilters) =
      db.orderBy filters (matching db rows filters.toCountFilters) := by
  have hrows : ∀ {f : Filters} {a : Run}, a ∈ db.orderBy f (matching db rows filters.toCountFilters) → a ∈ rows :=
    fun ha => (mem_matching.1 ((db.orderBy_perm _ _).mem_iff.1 ha)).1
  refine List.Perm.eq_of_pairwise (fun a b ha hb hab hba => ?_) (db.orderBy_sorted _ _) (db.orderBy_sorted filters _)
    ((db.orderBy_perm _ _).trans (db.orderBy_perm _ _).symm)
  exact List.inj_on_of_nodup_map hkeys (hrows ha) (hrows hb) (before_antisymm hab hba)

/-- The pages below the number of matching runs, as slices of the ordered runs. -/
theorem pagesBelow_eq (h : ∀ text ∈ literals filters.toCountFilters, (db.instant text).isSome)
    (hkeys : (rows.map (sortCol filters)).Nodup) (total : Nat) :
    ∃ pages ∈ pagesBelow db rows filters total, pages.map (·.data) =
      (Paging.offsets (filters.limit.getD 50) total).map fun offset =>
        ((db.orderBy filters (matching db rows filters.toCountFilters)).drop offset).take (filters.limit.getD 50) := by
  let page (offset : Nat) : RunRecordPage :=
    { data := ((db.orderBy filters (matching db rows filters.toCountFilters)).drop offset).take
        (filters.limit.getD 50)
      total := (matching db rows (counted filters)).length
      limit := filters.limit.getD 50
      offset }
  have hpage : ∀ offset, listRuns db rows { filters with offset := some offset } = some (page offset) := by
    intro offset
    have hliterals : ∀ text ∈ literals { filters with offset := some offset }.toCountFilters,
        (db.instant text).isSome := h
    rw [listRuns_eq hliterals]
    simp only [orderBy_offset hkeys]
    rfl
  refine ⟨(Paging.offsets (filters.limit.getD 50) total).map page, ?_, by rw [List.map_map]; rfl⟩
  unfold pagesBelow
  simp only [hpage]
  exact List.mapM_pure

/-- The total agrees with the pages if and only if the listing leaves the sandbox runs out or none passes the
filters. -/
theorem listRuns_consistent_iff (db : Database) (rows : List Run) (filters : Filters)
    (haccepted : (listRuns db rows filters).isSome) (hlimit : 1 ≤ filters.limit.getD 50)
    (hkeys : (rows.map (sortCol filters)).Nodup) :
    Consistent db rows filters ↔
      (filters.includeSandbox = some true → ∀ r ∈ rows, Matches db filters.toCountFilters r → r.mode ≠ .sandbox) := by
  have hliterals := literals_of_isSome haccepted
  have hlength := (db.orderBy_perm filters (matching db rows filters.toCountFilters)).length_eq
  unfold Consistent
  simp only [listRuns_eq hliterals, Option.mem_def, Option.some.injEq, exists_eq_left']
  rw [total_eq_iff, and_iff_left_iff_imp]
  intro hlive
  obtain ⟨pages, hpages, hdata⟩ := pagesBelow_eq hliterals hkeys (matching db rows filters.toCountFilters).length
  rw [total_eq_iff.2 hlive]
  refine ⟨pages, hpages, ?_, ?_⟩
  · rw [List.flatMap_def, hdata, ← List.flatMap_def, ← hlength, Paging.flatMap_offsets hlimit]
    exact db.orderBy_perm _ _
  · intro page hpage
    have hmem : page.data ∈ pages.map (·.data) := List.mem_map_of_mem hpage
    rw [hdata, List.mem_map] at hmem
    obtain ⟨offset, hoffset, hslice⟩ := hmem
    rw [← hslice]
    refine Paging.slice_ne_nil hlimit ?_
    rw [hlength]
    exact ((Paging.mem_offsets hlimit).1 hoffset).2

/-! ### A sandbox run -/

instance (filters : Filters) : DecidableRel (Before filters) := fun _ _ => by
  unfold Before
  split <;> infer_instance

instance (filters : Filters) : Std.Total (Before filters) :=
  ⟨fun a b => by unfold Before; split <;> exact Int.le_total _ _⟩

instance (filters : Filters) : IsTrans Run (Before filters) :=
  ⟨fun a b c hab hbc => by unfold Before at *; split <;> simp_all <;> omega⟩

/-- A database that reads timestamps as numbers and finds whole texts. -/
def plain : Database where
  instant := String.toInt?
  ilike text pattern := pattern = "%" ++ text ++ "%"
  jsonbText tags := "[" ++ ", ".intercalate (tags.map fun tag => "\"" ++ tag ++ "\"") ++ "]"
  orderBy filters rows := rows.insertionSort (Before filters)
  orderBy_perm _ _ := List.perm_insertionSort _ _
  orderBy_sorted _ _ := List.pairwise_insertionSort _ _

/-- One live run and one sandbox run. -/
def liveAndSandbox : List Run :=
  [{ id := "run-1", status := .completed, mode := .live, tags := [], scenarioRef := none, environment := none
     createdAt := 1, updatedAt := 1, archivedAt := none },
   { id := "run-2", status := .completed, mode := .sandbox, tags := [], scenarioRef := none, environment := none
     createdAt := 2, updatedAt := 2, archivedAt := none }]

theorem listRuns_consistent_default : Consistent plain liveAndSandbox {} :=
  (listRuns_consistent_iff plain liveAndSandbox {} (by decide) (by decide) (by decide)).2 (fun h => nomatch h)

/-- Both runs are on the page, and the total is one. -/
theorem sandbox_run_uncounted :
    (listRuns plain liveAndSandbox { includeSandbox := some true }).map (fun page => (page.data.length, page.total)) =
        some (2, 1) ∧
      ¬ Consistent plain liveAndSandbox { includeSandbox := some true } := by
  have hpage : (listRuns plain liveAndSandbox { includeSandbox := some true }).map
      (fun page => (page.data.length, page.total)) = some (2, 1) := by decide
  refine ⟨hpage, ?_⟩
  rintro ⟨page, hmem, htotal, -⟩
  have hmatching : (matching plain liveAndSandbox { includeSandbox := some true }).length = 2 := by decide
  rw [Option.mem_def.1 hmem, Option.map_some, Option.some.injEq, Prod.mk.injEq] at hpage
  have hone : page.total = 1 := hpage.2
  rw [hone] at htotal
  exact absurd (htotal.trans hmatching) (by decide)

end RunPages

end MacpControlPlane
