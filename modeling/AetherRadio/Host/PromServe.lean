import AetherRadio.Bench.Run
import AetherRadio.Metrics.Prometheus

/-!
# Serving the exposition

`run_prom_serve` of `crates/cli/src/main.rs`: one connection after the other, each answered with the
metrics of a bench or with a refusal. What a connection sends enters as the text of its first read.
-/

namespace AetherRadio

open Verif Verif.Text

/-- The configuration as parsed. From `crates/cli/src/main.rs:537–549`. -/
structure PromScrapeConfig where
  path : String
  refreshOnScrape : Bool
  symbolCount : UInt64
  job : String

/-- The files of a rendering as parsed, and the text of the link speed they set. -/
structure PromFiles where
  bench : BenchConfig
  thresholds : HealthThresholds
  linkSpeedGbps : RealText

/-- A connection: whether it is accepted, what it sends, and whether it takes a whole answer. -/
structure Connection where
  accepted : Bool
  request : List Char
  takes : Bool

/-- How the server fails. -/
inductive PromServeError where
  | accept
  | bench (cause : PipelineBenchError)
  | write

/-- An answer. -/
inductive PromAnswer where
  | metrics (body : String)
  | notFound

/-- Why the server is no longer served, if so. -/
inductive ServeEnd where
  | listening
  | once
  | failed (cause : PromServeError)

namespace PromAnswer

/-- The status of an answer. -/
def status : PromAnswer → List Char
  | .metrics _ => "200 OK".toList
  | .notFound => "404 Not Found".toList

def body : PromAnswer → String
  | .metrics body => body
  | .notFound => "use GET /metrics\n"

/-- What is written to the connection. From `crates/cli/src/main.rs:610–615,622–627`. -/
def text : PromAnswer → String
  | .metrics body =>
    "HTTP/1.1 200 OK\r\nContent-Type: text/plain; version=0.0.4\r\nContent-Length: " ++
      body.utf8ByteSize.repr ++ "\r\nConnection: close\r\n\r\n" ++ body
  | .notFound =>
    let body := "use GET /metrics\n"
    "HTTP/1.1 404 Not Found\r\nContent-Length: " ++ body.utf8ByteSize.repr ++
      "\r\nConnection: close\r\n\r\n" ++ body

end PromAnswer

namespace PromServe

variable (cfg : PromScrapeConfig)

/-- The closure `render`. From `crates/cli/src/main.rs:571–587`. -/
def render (files : PromFiles) : Except PromServeError String := do
  let profile := { files.bench.profile with symbolCount := cfg.symbolCount }
  let r ← (PipelineBench.run { files.bench with profile }).mapError .bench
  let (health, _) := (HealthManager.new files.thresholds).evaluate r.metrics.layered none
  pure (renderPrometheusText r.metrics.layered files.linkSpeedGbps (some health.state) cfg.job)

/-- Whether a request is one for the metrics. From `crates/cli/src/main.rs:601–604`. -/
def isMetrics (request : List Char) : Bool :=
  "GET ".toList <+: request ∧
    ((" " ++ cfg.path ++ " ").toList <:+: request ∨ (" " ++ cfg.path ++ "?").toList <:+: request ∨
      (" " ++ cfg.path ++ " HTTP").toList <:+: request)

/-- The loop over the connections: the answers, and how it ended. `files k` is what the files hold
at the request for metrics with the number `k`. A refusal that cannot be written is let be.
From `crates/cli/src/main.rs:596–629`. -/
def serve (once : Bool) (files : Nat → PromFiles) :
    List Connection → String → Nat → List PromAnswer × ServeEnd
  | [], _, _ => ([], .listening)
  | conn :: conns, cached, k =>
    if !conn.accepted then ([], .failed .accept)
    else if isMetrics cfg conn.request then
      match if cfg.refreshOnScrape then render cfg (files k) else .ok cached with
      | .error e => ([], .failed e)
      | .ok body =>
        if !conn.takes then ([], .failed .write)
        else if once then ([.metrics body], .once)
        else
          let (answers, ending) := serve once files conns body (k + 1)
          (.metrics body :: answers, ending)
    else
      let (answers, ending) := serve once files conns cached k
      (.notFound :: answers, ending)

/-- A whole run. From `crates/cli/src/main.rs:529–631`. -/
def run (once : Bool) (files : Nat → PromFiles) (conns : List Connection) :
    Except PromServeError (List PromAnswer × ServeEnd) := do
  let cached ← render cfg (files 0)
  pure (serve cfg once files conns cached 1)

variable {cfg} {once : Bool} {files : Nat → PromFiles} {cached : String} {k : Nat}

/-- The requests for metrics among connections. -/
def requests (cfg : PromScrapeConfig) (conns : List Connection) : Nat :=
  conns.countP (isMetrics cfg ·.request)

/-- What the answer to a connection is, when `n` requests for metrics came before it. -/
def Answered (cfg : PromScrapeConfig) (files : Nat → PromFiles) (cached : String) (n : Nat)
    (conn : Connection) : PromAnswer → Prop
  | .metrics body => conn.accepted = true ∧ isMetrics cfg conn.request = true ∧
      conn.takes = true ∧
      if cfg.refreshOnScrape then render cfg (files n) = .ok body else body = cached
  | .notFound => conn.accepted = true ∧ isMetrics cfg conn.request = false

/-- Why a connection ends the server, when `n` requests for metrics came before it. -/
def Fatal (cfg : PromScrapeConfig) (files : Nat → PromFiles) (n : Nat) (conn : Connection)
    (e : PromServeError) : Prop :=
  conn.accepted = false ∧ e = .accept ∨
    conn.accepted = true ∧ isMetrics cfg conn.request = true ∧
      (cfg.refreshOnScrape = true ∧ render cfg (files n) = .error e ∨
        (cfg.refreshOnScrape = true → ∃ body, render cfg (files n) = .ok body) ∧
          conn.takes = false ∧ e = .write)

/-- What a run has answered, and why it has ended. -/
structure Served (cfg : PromScrapeConfig) (once : Bool) (files : Nat → PromFiles)
    (cached : String) (k : Nat) (conns : List Connection) (out : List PromAnswer × ServeEnd) :
    Prop where
  answered : ∀ i answer, out.1[i]? = some answer → ∃ conn, conns[i]? = some conn ∧
    Answered cfg files cached (k + requests cfg (conns.take i)) conn answer
  single : once = true → ∀ i body, out.1[i]? = some (.metrics body) →
    i + 1 = out.1.length ∧ out.2 = .once
  ending : match out.2 with
    | .listening => out.1.length = conns.length
    | .once => once = true ∧ ∃ body, out.1.getLast? = some (.metrics body)
    | .failed e => ∃ conn, conns[out.1.length]? = some conn ∧
        Fatal cfg files (k + requests cfg (conns.take out.1.length)) conn e

/-- A connection that ends the server at once. -/
theorem served_of_fatal {conn : Connection} {e : PromServeError} (h : Fatal cfg files k conn e)
    (conns : List Connection) :
    Served cfg once files cached k (conn :: conns) ([], .failed e) := by
  refine ⟨?_, ?_, ⟨conn, rfl, h⟩⟩
  · intro i answer hanswer
    cases hanswer
  · intro _ i body hbody
    cases hbody

/-- A connection whose answer is the only one wanted. -/
private theorem served_once {conn : Connection} {body : String}
    (h : Answered cfg files cached k conn (.metrics body)) (conns : List Connection) :
    Served cfg true files cached k (conn :: conns) ([.metrics body], .once) := by
  refine ⟨?_, ?_, rfl, body, rfl⟩
  · intro i answer hanswer
    cases i with
    | zero =>
      cases hanswer
      exact ⟨conn, rfl, h⟩
    | succ i => cases hanswer
  · intro _ i body' hbody
    cases i with
    | zero => exact ⟨rfl, rfl⟩
    | succ i => cases hbody

/-- Where the answers come from the cache, the cache stays. -/
private theorem Answered.of_cached {conn : Connection} {answer : PromAnswer} {cached' : String}
    {n : Nat}
    (h : Answered cfg files cached' n conn answer)
    (hcached : cfg.refreshOnScrape = false → cached' = cached) :
    Answered cfg files cached n conn answer := by
  cases answer with
  | notFound => exact h
  | metrics body =>
    obtain ⟨haccepted, hmetrics, htakes, hbody⟩ := h
    refine ⟨haccepted, hmetrics, htakes, ?_⟩
    by_cases hrefresh : cfg.refreshOnScrape = true
    · rw [if_pos hrefresh] at hbody ⊢
      exact hbody
    · rw [if_neg hrefresh] at hbody ⊢
      rw [hbody]
      exact hcached (Bool.eq_false_iff.mpr hrefresh)

private theorem requests_cons (conn : Connection) (conns : List Connection) :
    requests cfg (conn :: conns) = requests cfg [conn] + requests cfg conns := by
  rw [requests, ← List.singleton_append, List.countP_append]
  rfl

/-- A connection that is answered, and then others are. -/
theorem served_cons {conn : Connection} {conns : List Connection} {answer : PromAnswer}
    {cached' : String} {k' : Nat} {out : List PromAnswer × ServeEnd}
    (hanswer : Answered cfg files cached k conn answer)
    (honce : once = true → ∀ body, answer ≠ .metrics body)
    (hnumber : k' = k + requests cfg [conn])
    (hcached : cfg.refreshOnScrape = false → cached' = cached)
    (h : Served cfg once files cached' k' conns out) :
    Served cfg once files cached k (conn :: conns) (answer :: out.1, out.2) := by
  have hrequests (i : Nat) : k + requests cfg ((conn :: conns).take (i + 1)) =
      k' + requests cfg (conns.take i) := by
    rw [List.take_succ_cons, requests_cons, hnumber, Nat.add_assoc]
  constructor
  · intro i answer' hi
    cases i with
    | zero =>
      cases hi
      exact ⟨conn, rfl, hanswer⟩
    | succ i =>
      obtain ⟨conn', hconn', hanswer'⟩ := h.answered i answer' hi
      refine ⟨conn', hconn', ?_⟩
      rw [hrequests]
      exact hanswer'.of_cached hcached
  · intro hone i body hi
    cases i with
    | zero => exact absurd (Option.some.inj hi) (honce hone body)
    | succ i =>
      obtain ⟨hlast, hend⟩ := h.single hone i body hi
      exact ⟨congrArg (· + 1) hlast, hend⟩
  · have hending := h.ending
    obtain ⟨answers, ending⟩ := out
    cases ending with
    | listening => exact congrArg (· + 1) hending
    | once =>
      obtain ⟨hone, body, hlast⟩ := hending
      refine ⟨hone, body, ?_⟩
      rw [List.getLast?_cons, hlast]
      rfl
    | failed e =>
      obtain ⟨conn', hconn', hfatal⟩ := hending
      refine ⟨conn', hconn', ?_⟩
      show Fatal cfg files (k + requests cfg ((conn :: conns).take (answers.length + 1))) conn' e
      rw [hrequests]
      exact hfatal

private theorem serve_served (conns : List Connection) :
    Served cfg once files cached k conns (serve cfg once files conns cached k) := by
  induction conns generalizing cached k with
  | nil =>
    refine ⟨?_, ?_, rfl⟩
    · intro i answer hanswer
      cases hanswer
    · intro _ i body hbody
      cases hbody
  | cons conn conns ih =>
    rw [serve]
    by_cases haccepted : conn.accepted = true
    · rw [if_neg (by simp [haccepted])]
      by_cases hmetrics : isMetrics cfg conn.request = true
      · rw [if_pos hmetrics]
        have hnumber : k + 1 = k + requests cfg [conn] := by
          simp [requests, hmetrics]
        cases hbody : (if cfg.refreshOnScrape then render cfg (files k) else .ok cached) with
        | error e =>
          apply served_of_fatal
          right
          refine ⟨haccepted, hmetrics, .inl ?_⟩
          by_cases hrefresh : cfg.refreshOnScrape = true
          · rw [if_pos hrefresh] at hbody
            exact ⟨hrefresh, hbody⟩
          · rw [if_neg hrefresh] at hbody
            cases hbody
        | ok body =>
          have hrendered : if cfg.refreshOnScrape then render cfg (files k) = .ok body
              else body = cached := by
            by_cases hrefresh : cfg.refreshOnScrape = true
            · rw [if_pos hrefresh] at hbody ⊢
              exact hbody
            · rw [if_neg hrefresh] at hbody ⊢
              exact (Except.ok.inj hbody).symm
          dsimp only
          by_cases htakes : conn.takes = true
          · have hanswer : Answered cfg files cached k conn (.metrics body) :=
              ⟨haccepted, hmetrics, htakes, hrendered⟩
            rw [if_neg (by simp [htakes])]
            cases once with
            | true =>
              rw [if_pos rfl]
              exact served_once hanswer conns
            | false =>
              rw [if_neg Bool.false_ne_true]
              apply served_cons hanswer (fun h ↦ absurd h Bool.false_ne_true) hnumber ?_ ih
              intro hrefresh
              rw [if_neg (by simp [hrefresh])] at hbody
              exact (Except.ok.inj hbody).symm
          · rw [if_pos (by simp [htakes])]
            apply served_of_fatal
            right
            refine ⟨haccepted, hmetrics, .inr ⟨?_, Bool.eq_false_iff.mpr htakes, rfl⟩⟩
            intro hrefresh
            rw [if_pos hrefresh] at hrendered
            exact ⟨body, hrendered⟩
      · rw [if_neg hmetrics]
        have hnumber : k = k + requests cfg [conn] := by
          simp [requests, hmetrics]
        exact served_cons ⟨haccepted, Bool.eq_false_iff.mpr hmetrics⟩ nofun hnumber (fun _ ↦ rfl) ih
    · rw [if_pos (by simp [haccepted])]
      apply served_of_fatal
      exact .inl ⟨Bool.eq_false_iff.mpr haccepted, rfl⟩

/-- The lines before the empty line, and all after it. -/
def splitAnswer (text : List Char) : List (List Char) × List Char :=
  let lines := text.splitOn '\n'
  let head := lines.takeWhile (· ≠ ['\r'])
  (head, ['\n'].intercalate (lines.drop (head.length + 1)))

/-- The status of the first line, and the length that is declared. -/
def readHead (head : List (List Char)) : Option (List Char × Nat) := do
  let first ← head.head?
  let status ← first.dropPrefix? "HTTP/1.1 ".toList
  let declared ← head.findSome? (·.dropPrefix? "Content-Length: ".toList)
  let length ← readNat declared.dropLast
  pure (status.dropLast, length)

/-- What a client makes of an answer: its status and its body, if that is as long as declared. -/
def readAnswer (text : List Char) : Option (List Char × List Char) := do
  let (head, body) := splitAnswer text
  let (status, length) ← readHead head
  if (String.ofList body).utf8ByteSize = length then some (status, body) else none

private theorem splitAnswer_append {head : List (List Char)} (hline : ∀ l ∈ head, '\n' ∉ l)
    (hfull : ∀ l ∈ head, l ≠ ['\r']) (body : List Char) :
    splitAnswer ((head ++ [['\r']]).flatMap (· ++ ['\n']) ++ body) = (head, body) := by
  have hlines : ((head ++ [['\r']]).flatMap (· ++ ['\n']) ++ body).splitOn '\n' =
      head ++ ['\r'] :: body.splitOn '\n' := by
    rw [splitOn_lines_append, List.append_assoc, List.singleton_append]
    intro l hl
    rcases List.mem_append.mp hl with hl | hl
    · exact hline l hl
    · rw [List.mem_singleton.mp hl]
      decide
  have hhead : (head ++ ['\r'] :: body.splitOn '\n').takeWhile (· ≠ ['\r']) = head := by
    rw [List.takeWhile_append_of_pos fun l hl ↦ decide_eq_true (hfull l hl)]
    simp
  have hdrop : (head ++ ['\r'] :: body.splitOn '\n').drop (head.length + 1) =
      body.splitOn '\n' := by
    rw [List.drop_append, List.drop_of_length_le (Nat.le_succ _), Nat.add_sub_cancel_left]
    rfl
  simp only [splitAnswer, hlines, hhead, hdrop, List.intercalate_splitOn]

/-- The head of an answer: its status, what else it says, and the length of its body. -/
def headOf (status : List Char) (other : List (List Char)) (length : Nat) : List (List Char) :=
  ("HTTP/1.1 ".toList ++ (status ++ ['\r'])) :: (other ++
    [("Content-Length: ".toList ++ (length.repr.toList ++ ['\r'])), "Connection: close\r".toList])

variable {status : List Char} {other : List (List Char)}

private theorem readHead_headOf
    (hother : ∀ l ∈ other, l.dropPrefix? "Content-Length: ".toList = none)
    (length : Nat) : readHead (headOf status other length) = some (status, length) := by
  have hfirst : ("HTTP/1.1 ".toList ++ (status ++ ['\r'])).dropPrefix? "Content-Length: ".toList =
      none := rfl
  have hdeclared : (headOf status other length).findSome?
      (·.dropPrefix? "Content-Length: ".toList) = some (length.repr.toList ++ ['\r']) := by
    rw [headOf, List.findSome?_cons, hfirst, List.findSome?_append,
      List.findSome?_eq_none_iff.mpr hother, List.findSome?_cons, dropPrefix?_append]
    rfl
  rw [readHead, hdeclared]
  show ((("HTTP/1.1 ".toList ++ (status ++ ['\r'])).dropPrefix? "HTTP/1.1 ".toList).bind _) = _
  rw [dropPrefix?_append]
  show ((readNat (length.repr.toList ++ ['\r']).dropLast).bind _) = _
  rw [List.dropLast_concat, readNat_repr]
  show some ((status ++ ['\r']).dropLast, length) = _
  rw [List.dropLast_concat]

/-- An answer that is written with its head is read. -/
theorem readAnswer_headOf (body : String) (hstatus : '\n' ∉ status)
    (hother : ∀ l ∈ other, '\n' ∉ l ∧ l ≠ ['\r'] ∧
      l.dropPrefix? "Content-Length: ".toList = none) :
    readAnswer ((headOf status other body.utf8ByteSize ++ [['\r']]).flatMap (· ++ ['\n']) ++
      body.toList) = some (status, body.toList) := by
  have hdigits : '\n' ∉ body.utf8ByteSize.repr.toList := not_mem_repr (by decide) _
  have hhead : ∀ l ∈ headOf status other body.utf8ByteSize, '\n' ∉ l ∧ l ≠ ['\r'] := by
    intro l hl
    rcases List.mem_cons.mp hl with rfl | hl
    · simp [hstatus]
    · rcases List.mem_append.mp hl with hl | hl
      · exact ⟨(hother l hl).1, (hother l hl).2.1⟩
      · simp only [List.mem_cons, List.not_mem_nil, or_false] at hl
        rcases hl with rfl | rfl
        · simpa using hdigits
        · decide
  rw [readAnswer, splitAnswer_append (fun l hl ↦ (hhead l hl).1) fun l hl ↦ (hhead l hl).2]
  dsimp only
  rw [readHead_headOf fun l hl ↦ (hother l hl).2.2]
  show (if (String.ofList body.toList).utf8ByteSize = _ then _ else none) = _
  rw [String.ofList_toList, if_pos rfl]

/-- What stands before the length and after it makes up the head. -/
theorem written_eq {start close : String} (n : Nat) (body : String)
    (hstart : start.toList = "HTTP/1.1 ".toList ++ (status ++ '\r' :: '\n' ::
      (other.flatMap (· ++ ['\n']) ++ "Content-Length: ".toList)))
    (hclose : close.toList =
      '\r' :: '\n' :: ("Connection: close\r".toList ++ ['\n', '\r', '\n'])) :
    (start ++ n.repr ++ close ++ body).toList =
      (headOf status other n ++ [['\r']]).flatMap (· ++ ['\n']) ++ body.toList := by
  rw [String.toList_append, String.toList_append, String.toList_append, hstart, hclose, headOf]
  simp [-String.reduceToList]

/-- A client reads the body that was written, and all of it. -/
private theorem readAnswer_text (answer : PromAnswer) :
    readAnswer answer.text.toList = some (answer.status, answer.body.toList) := by
  cases answer with
  | metrics body =>
    have htext : (PromAnswer.metrics body).text.toList =
        (headOf "200 OK".toList ["Content-Type: text/plain; version=0.0.4\r".toList]
          body.utf8ByteSize ++ [['\r']]).flatMap (· ++ ['\n']) ++ body.toList :=
      written_eq _ body (by decide) (by decide)
    rw [htext]
    exact readAnswer_headOf body (by decide) (by decide)
  | notFound =>
    have htext : PromAnswer.notFound.text.toList =
        (headOf "404 Not Found".toList [] PromAnswer.notFound.body.utf8ByteSize ++
          [['\r']]).flatMap (· ++ ['\n']) ++ PromAnswer.notFound.body.toList :=
      written_eq _ PromAnswer.notFound.body (by decide) (by decide)
    rw [htext]
    exact readAnswer_headOf _ (by decide) nofun

/-- Without a first rendering there is no server. With it the connections are answered in order, a
request for metrics with the rendering of its own number (without `refresh_on_scrape`: the first),
up to the first that cannot be accepted, rendered or written, or that was the one wanted. The
listener is taken to bind. -/
theorem run_served (cfg : PromScrapeConfig) (once : Bool) (files : Nat → PromFiles)
    (conns : List Connection) :
    match render cfg (files 0) with
    | .error e => run cfg once files conns = .error e
    | .ok first => ∃ out, run cfg once files conns = .ok out ∧
        Served cfg once files first 1 conns out ∧
        ∀ answer ∈ out.1,
          readAnswer answer.text.toList = some (answer.status, answer.body.toList) := by
  cases hfirst : render cfg (files 0) with
  | error e =>
    rw [run, hfirst]
    rfl
  | ok first =>
    refine ⟨serve cfg once files conns first 1, ?_, serve_served conns, ?_⟩
    · rw [run, hfirst]
      rfl
    · intro answer _
      apply readAnswer_text

end PromServe

end AetherRadio
