import Mathlib.Data.List.Infix
import Solvan.Liaison.Events
import Solvan.Liaison.Records

/-! The enumerated questions, and how free text selects one. -/
namespace Solvan.Liaison.Turn

/-- What a turn asks of the language and its libraries: besides the language `str.lower`, `int` of a text,
`os.environ`, the digest of a set of records, and a new identifier. -/
structure Platform where
  lang : Language
  lower : String → String
  int : String → Option Int
  environ : String → Option String
  recordsDigest : List RecordKey → String
  newIdentifier : String → String

structure Question where
  id : String
  prompt : String
  /-- The states in which it is offered. Empty for all. -/
  offerWhenState : List String
  /-- Runs of whole words that select it. -/
  keywords : List String
  answersAcrossRecords : Bool
deriving DecidableEq, Repr

def isItFixed : Question where
  id := "IS_IT_FIXED"
  prompt := "Is it fixed?"
  offerWhenState := []
  keywords :=
    ["fixed", "recovered", "recovery", "resolved", "mitigated", "is it safe", "is it ok",
    "is it okay", "back to normal", "still broken", "still down", "still failing", "is it working",
    "all clear"]
  answersAcrossRecords := false

def whatHappened : Question where
  id := "WHAT_HAPPENED"
  prompt := "What happened?"
  offerWhenState := []
  keywords :=
    ["what happened", "what went wrong", "why", "cause", "caused", "causing", "root cause",
    "explain", "explanation", "mechanism", "summary", "summarise", "summarize", "walk me through",
    "what is going on", "what's going on"]
  answersAcrossRecords := false

def whatWasTheImpact : Question where
  id := "WHAT_WAS_THE_IMPACT"
  prompt := "What was the impact?"
  offerWhenState := []
  keywords :=
    ["impact", "how bad", "customer", "customers", "severity", "how many", "who was affected"]
  answersAcrossRecords := false

def whatNeedsMe : Question where
  id := "WHAT_NEEDS_ME"
  prompt := "What needs a person?"
  offerWhenState := ["AWAITING_APPROVAL", "MITIGATED", "ESCALATED"]
  keywords :=
    ["what needs a person", "needs a person", "needs me", "need from me", "waiting on",
    "waiting for", "needs approval", "awaiting approval", "who needs to", "blocked on", "blocking",
    "next step", "next steps", "what happens next", "anything from me"]
  answersAcrossRecords := false

def wasDataLost : Question where
  id := "WAS_DATA_LOST"
  prompt := "Was any data lost?"
  offerWhenState := []
  keywords :=
    ["data loss", "data lost", "lost data", "duplicate", "duplicates", "charged twice", "ledger"]
  answersAcrossRecords := false

def isAnythingElseAffected : Question where
  id := "IS_ANYTHING_ELSE_AFFECTED"
  prompt := "Is anything else affected?"
  offerWhenState := []
  keywords :=
    ["anything else", "else affected", "downstream", "blast radius", "spread", "other services",
    "contained"]
  answersAcrossRecords := false

def whatIsTheEvidence : Question where
  id := "WHAT_IS_THE_EVIDENCE"
  prompt := "What evidence is this based on?"
  offerWhenState := []
  keywords :=
    ["evidence", "proof", "how do you know", "basis", "citation", "citations", "sources"]
  answersAcrossRecords := false

def wasTheChangeApplied : Question where
  id := "WAS_THE_CHANGE_APPLIED"
  prompt := "Was the change applied?"
  offerWhenState := []
  keywords :=
    ["change applied", "applied", "deployed", "did it deploy", "rollback", "rolled back",
    "executed", "shipped", "went out", "is it live"]
  answersAcrossRecords := false

def whereAreWe : Question where
  id := "WHERE_ARE_WE"
  prompt := "What stage are we at?"
  offerWhenState := []
  keywords :=
    ["stage", "what stage", "status", "state", "progress", "where are we", "where we are",
    "how far", "update", "any update", "latest", "how is it going", "how are we doing",
    "current position"]
  answersAcrossRecords := true

def isItClosed : Question where
  id := "IS_IT_CLOSED"
  prompt := "Is it closed?"
  offerWhenState := []
  keywords :=
    ["closed", "close", "cleared", "clear", "over", "done", "finished", "wrapped up",
    "can we close", "still open", "is it open"]
  answersAcrossRecords := true

/-- `QUESTIONS` -/
def questions : List Question :=
  [isItFixed, whatHappened, whatWasTheImpact, whatNeedsMe, wasDataLost, isAnythingElseAffected,
    whatIsTheEvidence, wasTheChangeApplied, whereAreWe, isItClosed]

/-- `CHAIN_STEP_LABELS` -/
def chainStepLabels : List String := ["Fault", "Mechanism", "Impact", "Recovery", "Outcome"]

/-- `[a-z0-9]` -/
def wordCharacter (c : Char) : Bool :=
  decide ('a' ≤ c ∧ c ≤ 'z') || decide ('0' ≤ c ∧ c ≤ '9')

/-- `_words` -/
def words (env : Platform) (text : String) : List (List Char) :=
  ((env.lower text).toList.splitOnP (fun c => !wordCharacter c)).filter (fun word => !word.isEmpty)

/-- `_phrase_score` -/
def phraseScore (env : Platform) (words : List (List Char)) (keyword : String) : Nat :=
  let phrase := Turn.words env keyword
  if phrase.isEmpty || words.length < phrase.length then 0
  else if phrase <:+: words then phrase.length
  else 0

/-- `str(record.get("state", "")).upper()` -/
def recordState (env : Platform) (record : Record) : String :=
  env.lang.upper (env.lang.get record "state")

/-- Whether the state of a record admits a question. -/
def Question.admitted (question : Question) (state : String) : Bool :=
  question.offerWhenState.isEmpty || question.offerWhenState.contains state

/-- The best score among the keywords. -/
def Question.score (env : Platform) (words : List (List Char)) (question : Question) : Nat :=
  (question.keywords.map (phraseScore env words)).foldl max 0

/-- One pass of the loop of `match_question`. -/
def improve (env : Platform) (words : List (List Char)) (state : Option String)
    (best : Option (Nat × Question)) (question : Question) : Option (Nat × Question) :=
  if state.any (fun state => !question.admitted state) then best
  else
    let score := question.score env words
    if score != 0 && best.all (fun best => best.1 < score) then some (score, question) else best

/-- `match_question` -/
def matchQuestion (env : Platform) (text : String) (record : Option Record) : Option Question :=
  let words := Turn.words env text
  if words.isEmpty then none
  else (questions.foldl (improve env words (record.map (recordState env))) none).map Prod.snd

/-- `offered_questions` -/
def offeredQuestions (env : Platform) (record : Record) : List String :=
  (questions.filter (fun question => question.admitted (recordState env record))).map Question.id

/-- `scope_offered_questions` -/
def scopeOfferedQuestions : List String :=
  (questions.filter Question.answersAcrossRecords).map Question.id

/-- `question_prompt` -/
def questionPrompt (questionId : String) : String :=
  ((questions.find? (fun question => question.id == questionId)).map Question.prompt).getD questionId

/-- Only registered questions are matched. -/
theorem matchQuestion_mem {env : Platform} {text : String} {record : Option Record} {question : Question}
    (h : matchQuestion env text record = some question) : question ∈ questions := by
  unfold matchQuestion at h
  dsimp only at h
  split at h
  · cases h
  obtain ⟨best, hbest, rfl⟩ := Option.map_eq_some_iff.mp h
  clear h
  -- What is best so far is always one of the questions seen.
  suffices hall : ∀ (list : List Question) start, (∀ question ∈ list, question ∈ questions) →
      (∀ best, start = some best → best.2 ∈ questions) →
      ∀ best, list.foldl (improve env (words env text) (record.map (recordState env))) start = some best →
        best.2 ∈ questions from hall questions none (fun _ h => h) (fun _ h => nomatch h) best hbest
  intro list
  induction list with
  | nil => exact fun start _ hstart => hstart
  | cons question list ih =>
    intro start hlist hstart
    refine ih _ (fun other hother => hlist other (List.mem_cons_of_mem _ hother)) ?_
    intro found hfound
    unfold improve at hfound
    split at hfound
    · exact hstart found hfound
    · dsimp only at hfound
      split at hfound
      · obtain rfl := Option.some.inj hfound
        exact hlist question List.mem_cons_self
      · exact hstart found hfound

end Solvan.Liaison.Turn
