import ScriptLower.Project.Cache
import ScriptLower.Report.Records
import ScriptLower.Server.Request
import ScriptLower.Text.Quoted

/-!
# Answers

What a server counts, and what it answers.
-/

/-!
## Metrics

What a server counts: its answers by route and status, the runs by how they ended, and the bytes it
was given to run. They are shown as text, the metrics in the order of their names and the samples of
each in the order of their labels.
-/

namespace ScriptLower.Server

open ScriptLower

/-- The counts of a server. -/
structure Metrics where
  /-- Answers by status and route. -/
  requests : List ((Bytes × Bytes) × Nat) := []
  /-- Runs by how they ended. -/
  outcomes : List (Bytes × Nat) := []
  /-- The bytes of all sources. -/
  inputBytes : Nat := 0
  deriving DecidableEq, Repr, Inhabited

namespace Metrics

/-- Adds one to the count of a key. -/
def count [BEq α] (counts : List (α × Nat)) (key : α) : List (α × Nat) :=
  if counts.any (·.1 == key) then counts.map fun c => if c.1 == key then (key, c.2 + 1) else c
  else counts ++ [(key, 1)]

/-- Counts an answer; a request that no route takes has none. -/
def answered (m : Metrics) (route : Option Bytes) (status : Nat) : Metrics :=
  { m with requests := count m.requests (Bytes.ofNat status, route.getD "unmatched") }

/-- Counts a run. -/
def ran (m : Metrics) (ok : Bool) (size : Nat) : Metrics :=
  { m with
    outcomes := count m.outcomes (if ok then "ok" else "failed")
    inputBytes := m.inputBytes + size }

/-- A count as a number: with an exponent from a million on. -/
def number (n : Nat) : Bytes :=
  let digits := Bytes.ofNat n
  if digits.length ≤ 6 then digits
  else
    let mantissa := Bytes.trimRight (· == ascii '0') digits
    let tail : Bytes := match mantissa.drop 1 with
      | [] => []
      | r => ascii '.' :: r
    mantissa.take 1 ++ tail ++ "e+"
      ++ Bytes.padLeft 2 (ascii '0') (Bytes.ofNat (digits.length - 1))

/-- One sample of a metric. -/
def sample (name : Bytes) (labels : List (Bytes × Bytes)) (n : Nat) : Bytes :=
  let text := Bytes.join "," (labels.map fun (k, v) => k ++ "=" ++ Quoted.quote v)
  let text : Bytes := if labels.isEmpty then [] else 0x7B :: text ++ [0x7D]
  name ++ text ++ " " ++ number n ++ "\n"

/-- A metric with its samples; one without samples is not shown. -/
def metric (name : String) (kind help : String) (samples : List (List (Bytes × Bytes) × Nat)) :
    Bytes :=
  let name : Bytes := "mesozoic_" ++ Bytes.ofString name
  if samples.isEmpty then []
  else
    "# HELP " ++ name ++ " " ++ Bytes.ofString help ++ "\n# TYPE " ++ name ++ " "
      ++ Bytes.ofString kind ++ "\n" ++ samples.flatMap fun (labels, n) => sample name labels n

/-- The order of labels by their values, the first that differ deciding. -/
def before (a b : List (Bytes × Bytes) × Nat) : Bool :=
  let key (x : List (Bytes × Bytes) × Nat) : Bytes := x.1.flatMap fun l => l.2 ++ [0]
  Bytes.le (key a) (key b)

/-- All metrics of a server. -/
def text (m : Metrics) (memo : Memo) : Bytes :=
  let requests := m.requests.map fun ((code, route), n) =>
    ([(Bytes.ofString "code", code), (Bytes.ofString "route", route)], n)
  let outcomes := m.outcomes.map fun (outcome, n) => ([(Bytes.ofString "outcome", outcome)], n)
  metric "http_requests_total" "counter" "HTTP requests by route and status code."
      (requests.mergeSort before)
    ++ metric "memo_entries" "gauge" "Results held in the in-memory cache." [([], memo.size)]
    ++ metric "memo_hits_total" "counter" "In-memory cache hits." [([], memo.hits)]
    ++ metric "memo_misses_total" "counter" "In-memory cache misses." [([], memo.misses)]
    ++ metric "transpile_input_bytes_total" "counter" "Source bytes accepted for transpilation."
      [([], m.inputBytes)]
    ++ metric "transpile_total" "counter" "Transpile requests by outcome."
      (outcomes.mergeSort before)

end Metrics

end ScriptLower.Server

/-!
## A server of runs

A server answers three questions: what the code of a source is, whether it is well, and what it has
counted. Each answer is a function of the server and the request, and leaves the server with its
memory and counts brought up to date.
-/

namespace ScriptLower.Server

open ScriptLower JsonValue

/-- How a server runs. -/
structure Config where
  /-- The options a request starts from. -/
  options : Options := {}
  /-- How many bytes a body may have. -/
  maxBody : Nat := 8 * Nat.pow 2 20
  /-- The version that is shown; nothing when there is none. -/
  version : Bytes := []
  deriving Inhabited

/-- A server. -/
structure State where
  /-- How it runs. -/
  config : Config
  /-- The outputs it remembers. -/
  memo : Memo
  /-- What it has counted. -/
  metrics : Metrics := {}
  deriving Inhabited

/-- The size of a body when no limit is given. -/
def defaultMaxBody : Nat := 8 * Nat.pow 2 20

/-- A server. A limit that is not positive means the default. -/
def State.new (o : Options) (maxBody memo : Int) (version : Bytes) : State where
  config :=
    { options := o, version := version
      maxBody := if maxBody ≤ 0 then defaultMaxBody else maxBody.toNat }
  memo := Memo.new memo

/-- A request. -/
structure Request where
  /-- The method. -/
  method : Bytes
  /-- The path, as it is written. -/
  path : Bytes
  /-- The query, as it is written. -/
  query : Bytes := []
  /-- The type of the body. -/
  contentType : Bytes := []
  /-- The body. -/
  body : Bytes := []
  deriving Inhabited

/-- A request to a target, which is a path with a query or a whole address. No method means that
something is to be got. -/
def Request.new (method target contentType body : Bytes) : Request :=
  let target := match Bytes.cut? "://" target with
    | some (_, r) =>
      if Path.isAbsolute target then target
      else r.dropWhile fun b => b != Path.slash && b != ascii '?'
    | none => target
  let (path, query) := (Bytes.cut? "?" target).getD (target, [])
  { method := if method.isEmpty then "GET" else method
    path := if path.isEmpty then "/" else path
    query := query, contentType := contentType, body := body }

/-- An answer. -/
structure Response where
  /-- The status. -/
  status : Nat
  /-- The type of the body. -/
  contentType : Bytes
  /-- The body. -/
  body : Bytes
  deriving DecidableEq, Repr, Inhabited

namespace Response

/-- An answer that is a value. -/
def json (status : Nat) (v : JsonValue) : Response :=
  { status := status, contentType := "application/json", body := v.compact ++ [10] }

/-- An answer that says what is wrong. -/
def error (status : Nat) (message : Bytes) : Response :=
  json status (members [("error", some (str message))])

/-- There is nothing at the path. -/
def notFound : Response where
  status := 404
  contentType := "text/plain; charset=utf-8"
  body := "404 page not found\n"

/-- The path does not take the method. -/
def notAllowed : Response := { status := 405, contentType := [], body := [] }

end Response

/-- What is asked of a server. -/
inductive Route
  /-- Whether it is well. -/
  | health
  /-- The code of a source. -/
  | transpile
  /-- What it has counted. -/
  | metrics
  deriving DecidableEq, Repr, Inhabited

namespace Route

/-- The path of a route. -/
def path : Route → Bytes
  | health => "/healthz"
  | transpile => "/transpile"
  | metrics => "/metrics"

/-- The method of a route. -/
def method : Route → Bytes
  | health => "GET"
  | transpile => "POST"
  | metrics => "GET"

/-- All routes. -/
def all : List Route := [health, transpile, metrics]

/-- The methods that are known at all. -/
def methods : List Bytes :=
  ["CONNECT", "DELETE", "GET", "HEAD", "OPTIONS", "PATCH", "POST", "PUT", "TRACE"].map
    Bytes.ofString

/-- The route of a request, or the answer to one that no route takes. -/
def find (r : Request) : Except Response Route :=
  if !methods.contains r.method then .error .notAllowed
  else match all.find? (·.path == r.path) with
    | none => .error .notFound
    | some route => if route.method == r.method then .ok route else .error .notAllowed

end Route

/-- Whether a server is well, after some milliseconds. -/
def health (s : State) (uptime : Nat) : Response :=
  let memo := members [("entries", some (nat s.memo.size)), ("hits", some (nat s.memo.hits)),
    ("misses", some (nat s.memo.misses))]
  .json 200 (members [
    ("status", some (str "ok")),
    ("version", nonempty s.config.version),
    ("uptime_ms", some (nat uptime)),
    ("memo", some memo)])

/-- What a server has counted. -/
def metricsPage (s : State) : Response where
  status := 200
  contentType := "text/plain; version=0.0.4; charset=utf-8; escaping=underscores"
  body := s.metrics.text s.memo

/-- The source in a request and the name of its file, if it has one. -/
def readSource (s : State) (r : Request) : Except Response (Bytes × Bytes) :=
  let body := Body.limited s.config.maxBody r.body
  let media := MediaType.read r.contentType
  if media.name == Bytes.ofString "multipart/form-data" then
    match media.parameter? "boundary" with
    | none => .error (.error 400 "request is not multipart")
    | some boundary =>
      match Multipart.file boundary body with
      | .ok found => .ok found
      | .error f =>
        let status := match f with
          | .tooLarge _ => 413
          | _ => 400
        .error (.error status f.message)
  else match body.ending with
    | .complete => .ok (body.bytes, [])
    | .tooLarge => .error (.error 413 ("failed to read body: " ++ tooLargeMessage))

/-- The answer that shows an output. -/
def outputPage (specifier : Bytes) (asScript : Bool) (out : FileOutput) : Response :=
  let options : Report.RecordOptions := { positions := true, notes := true }
  let found := arr (out.diagnostics.map (options.record (some out.files)))
  match out.failure with
  | some f =>
    .json (if f.kind == .configuration then 400 else 422) (members [
      ("error", some (str f.kind.name)),
      ("specifier", nonempty specifier),
      ("state", some (str f.stage.name)),
      ("diagnostics", if out.diagnostics.isEmpty then none else some found)])
  | none =>
    if asScript then
      { status := 200, contentType := "text/javascript; charset=utf-8", body := out.code }
    else
      .json 200 (members [
        ("specifier", some (str specifier)),
        ("code", some (str out.code)),
        ("map", out.map.map num),
        ("cached", whenTrue out.cached),
        ("diagnostics", some found)])

/-- The name a source is run under: that of its file, or the one asked for. -/
def specifierOf (fileName : Bytes) (q : Query) : Bytes :=
  if !fileName.isEmpty then fileName
  else if !(q.first "specifier").isEmpty then q.first "specifier"
  else "input.ts"

/-- Runs the source in a request. -/
def transpilePage (s : State) (r : Request) : Response × State :=
  let q := Query.read r.query
  match q.apply s.config.options with
  | .error e => (.error 400 e, s)
  | .ok o =>
    match readSource s r with
    | .error response => (response, s)
    | .ok (source, fileName) =>
      let specifier := specifierOf fileName q
      let (out, memo) := s.memo.transpile specifier source o
      let page := outputPage specifier (q.first "format" == Bytes.ofString "js") out
      (page, { s with memo := memo, metrics := s.metrics.ran out.isOk source.length })

/-- Answers a request, after some milliseconds of work. The answer is counted once it is made. -/
def State.handle (s : State) (uptime : Nat) (r : Request) : Response × State :=
  match Route.find r with
  | .error response =>
    (response, { s with metrics := s.metrics.answered none response.status })
  | .ok route =>
    let (response, s) := match route with
      | .health => (health s uptime, s)
      | .metrics => (metricsPage s, s)
      | .transpile => transpilePage s r
    (response, { s with metrics := s.metrics.answered (some route.path) response.status })

end ScriptLower.Server
