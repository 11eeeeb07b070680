import ComicCatalog.Lookup.Counter

/-! # Metrics

What has been counted, as text: families in the order of their names, each with
its samples in the order of their labels. A family without samples is left out,
unless it has no labels. Durations are not kept, so a histogram shows its counts
only.
-/

namespace ComicCatalog.Metrics

/-- One number under its labels. -/
structure Sample where
  labels : List String
  value : Nat
  deriving DecidableEq, Repr, Inhabited

/-- The numbers of one name. -/
structure Family where
  name : String
  help : String
  kind : String
  /-- What the name has behind it in the lines of its samples. -/
  sampleSuffix : String
  labelNames : List String
  samples : List Sample
  deriving Inhabited

/-- Lists of labels are ordered by their first difference. -/
def compareLabels : List String → List String → Ordering
  | [], [] => .eq
  | [], _ :: _ => .lt
  | _ :: _, [] => .gt
  | a :: as, b :: bs => (compare a b).then (compareLabels as bs)

/-- How often each list of labels occurs, in order. -/
def counted (labels : List (List String)) : List Sample :=
  (labels.eraseDups.mergeSort fun a b => (compareLabels a b).isLE).map fun values =>
    ⟨values, labels.count values⟩

/-- The labels of a counted request. -/
def requestLabels : Counter → Option (List String)
  | .request method path status => some [method, path, toString status]
  | _ => none

/-- The label of a counted fetch. -/
def fetchLabels : Counter → Option (List String)
  | .fetch outcome => some [outcome.label]
  | _ => none

/-- The label of a field emptied by a value without a name. -/
def shortCircuitLabels : Counter → Option (List String)
  | .shortCircuit facet => some [facet.key]
  | _ => none

/-- The label of a counted search. -/
def searchLabels : Counter → Option (List String)
  | .search outcome => some [outcome.label]
  | _ => none

/-- All families, in the order of their names. -/
def families (inFlight : Nat) (tally : Tally) : List Family := [
  { name := "mangashelf_http_request_duration_seconds"
    help := "HTTP request duration in seconds"
    kind := "histogram"
    sampleSuffix := "_count"
    labelNames := ["method", "path", "status"]
    samples := counted (tally.filterMap requestLabels) },
  { name := "mangashelf_http_requests_in_flight"
    help := "Number of HTTP requests currently being processed"
    kind := "gauge"
    sampleSuffix := ""
    labelNames := []
    samples := [⟨[], inFlight⟩] },
  { name := "mangashelf_http_requests_total"
    help := "Total HTTP requests"
    kind := "counter"
    sampleSuffix := ""
    labelNames := ["method", "path", "status"]
    samples := counted (tally.filterMap requestLabels) },
  { name := "mangashelf_proxy_fetches_total"
    help := "Upstream image fetches"
    kind := "counter"
    sampleSuffix := ""
    labelNames := ["outcome"]
    samples := counted (tally.filterMap fetchLabels) },
  { name := "mangashelf_search_duration_seconds"
    help := "Duration of search resolution and enrichment"
    kind := "histogram"
    sampleSuffix := "_count"
    labelNames := []
    samples := [] },
  { name := "mangashelf_search_short_circuits_total"
    help := "Filter keys resolved to nothing because a value matched no reference"
    kind := "counter"
    sampleSuffix := ""
    labelNames := ["key"]
    samples := counted (tally.filterMap shortCircuitLabels) },
  { name := "mangashelf_searches_total"
    help := "Total search requests"
    kind := "counter"
    sampleSuffix := ""
    labelNames := ["outcome"]
    samples := counted (tally.filterMap searchLabels) }]

/-- Labels with their values. -/
def labelsText (names values : List String) : String :=
  if names.isEmpty then ""
  else
    "\x7b" ++ String.intercalate "," ((names.zip values).map fun (name, value) =>
      name ++ "=\"" ++ value ++ "\"") ++ "\x7d"

/-- The lines of a family; none for one with labels but without samples. -/
def Family.lines (family : Family) : List String :=
  if family.samples.isEmpty && !family.labelNames.isEmpty then []
  else
    ["# HELP " ++ family.name ++ " " ++ family.help,
      "# TYPE " ++ family.name ++ " " ++ family.kind] ++
    family.samples.map fun sample =>
      family.name ++ family.sampleSuffix ++ labelsText family.labelNames sample.labels ++ " " ++
        toString sample.value

/-- The metrics as text, line by line. -/
def text (inFlight : Nat) (tally : Tally) : String :=
  String.join (((families inFlight tally).flatMap Family.lines).map (· ++ "\n"))

end ComicCatalog.Metrics
