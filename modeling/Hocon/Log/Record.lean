/-!
# Log records

A record has a severity, a source and a message. Severities are numbers; those with a name are
listed in `levelNames`. `Logged` is the monad of computations that leave records behind: it pairs
a value with the records in the order in which they were left. `Attempt` adds failure, and keeps
the records that were left before it.

* `Logged.value_bind`, `Logged.log_bind` – the value of a sequence of steps does not depend on
  what is logged, and the logs are joined in order;
* `Attempt.outcome_bind` – the outcome of an attempt can be computed without its log;
* `Attempt.ext` – there is nothing more to an attempt than its outcome and its log.
-/

namespace Hocon

namespace Log

/-! ### Severities -/

/-- The severity of the steps of a rendering. -/
def trace : Int := 5

/-- The severity of summaries. -/
def debug : Int := 10

/-- The severity of notices. -/
def info : Int := 20

/-- The severity of warnings. -/
def warning : Int := 30

/-- The severity of errors. -/
def error : Int := 40

/-- The severity of errors that end the program. -/
def critical : Int := 50

/-- The severities that have a name. -/
def levelNames : List (Int × String) := [
  (critical, "CRITICAL"), (error, "ERROR"), (warning, "WARNING"), (info, "INFO"),
  (debug, "DEBUG"), (trace, "TRACE"), (0, "NOTSET")]

/-- The name of a severity; one without a name is called by its number. -/
def levelName (level : Int) : String :=
  (levelNames.lookup level).getD ("Level " ++ toString level)

/-! ### Records -/

/-- The part of the library that leaves a record. -/
inductive Source where
  /-- Rendering of a tree. -/
  | rendering
  /-- Layout of a list. -/
  | layout
  /-- Resolving options. -/
  | options
  /-- Loading an option file. -/
  | loading
  /-- Writing an option file. -/
  | writing
  /-- Collecting diagnostics. -/
  | diagnostics
  /-- A program that uses the library. -/
  | client
  deriving DecidableEq, Repr

/-- A message with its severity and its source. -/
structure Record where
  /-- How severe it is. -/
  level : Int
  /-- Who left it. -/
  source : Source
  /-- What it says. -/
  message : String
  deriving DecidableEq, Repr

end Log

/-! ### Computations that leave records -/

/-- A value and the records that were left while it was computed. -/
structure Logged (α : Type) where
  /-- The records, in order. -/
  log : List Log.Record
  /-- The value. -/
  value : α

namespace Logged

variable {α β : Type}

instance : Monad Logged where
  pure a := ⟨[], a⟩
  bind x f := ⟨x.log ++ (f x.value).log, (f x.value).value⟩

@[simp] theorem value_pure (a : α) : (pure a : Logged α).value = a := rfl

@[simp] theorem log_pure (a : α) : (pure a : Logged α).log = [] := rfl

@[simp] theorem value_bind (x : Logged α) (f : α → Logged β) :
    (x >>= f).value = (f x.value).value := rfl

@[simp] theorem log_bind (x : Logged α) (f : α → Logged β) :
    (x >>= f).log = x.log ++ (f x.value).log := rfl

/-- Leave records. -/
def leave (records : List Log.Record) : Logged Unit :=
  ⟨records, ()⟩

/-- Leave one record. -/
def record (level : Int) (source : Log.Source) (message : String) : Logged Unit :=
  leave [{ level, source, message }]

/-- Leave one record if there are words for it. A record without words is lost, and nothing else
comes of that. -/
def recordIf (level : Int) (source : Log.Source) (message : Option String) : Logged Unit :=
  leave (message.toList.map fun message => { level, source, message })

end Logged

/-- A computation that leaves records and may fail. -/
abbrev Attempt (ε α : Type) := ExceptT ε Logged α

namespace Attempt

variable {ε α β : Type}

/-- How an attempt ends, apart from the records that it leaves. -/
def outcome (x : Attempt ε α) : Except ε α :=
  (ExceptT.run x).value

@[simp] theorem outcome_pure (a : α) : outcome (pure a : Attempt ε α) = .ok a := rfl

@[simp] theorem outcome_throw (e : ε) : outcome (throw e : Attempt ε α) = .error e := rfl

@[simp] theorem outcome_bind (x : Attempt ε α) (f : α → Attempt ε β) :
    outcome (x >>= f) = outcome x >>= fun a => outcome (f a) := by
  change (ExceptT.bindCont f (ExceptT.run x).value).value = _
  unfold outcome
  cases (ExceptT.run x).value <;> rfl

/-- An attempt that has its result already goes on with it. -/
@[simp] theorem pure_bind (a : α) (f : α → Attempt ε β) : (pure a >>= f) = f a := rfl

@[simp] theorem ok_bind (a : α) (f : α → Except ε β) : (Except.ok a >>= f) = f a := rfl

@[simp] theorem error_bind (e : ε) (f : α → Except ε β) :
    (Except.error e >>= f) = .error e := rfl

/-- Two steps that succeed one after the other. -/
theorem exists_of_bind_eq_ok {x : Except ε α} {f : α → Except ε β} {b : β}
    (h : x >>= f = .ok b) : ∃ a, x = .ok a ∧ f a = .ok b := by
  cases x with
  | error e => exact absurd h (by simp)
  | ok a => exact ⟨a, rfl, h⟩

/-- Take up the result of a computation that leaves no records. -/
def ofExcept (r : Except ε α) : Attempt ε α :=
  ExceptT.mk (pure r)

@[simp] theorem outcome_ofExcept (r : Except ε α) : outcome (ofExcept r) = r := rfl

/-- Leave one record. -/
def record (level : Int) (source : Log.Source) (message : String) : Attempt ε Unit :=
  liftM (Logged.record level source message)

/-- Leave one record if there are words for it. -/
def recordIf (level : Int) (source : Log.Source) (message : Option String) : Attempt ε Unit :=
  liftM (Logged.recordIf level source message)

@[simp] theorem outcome_record (level : Int) (source : Log.Source) (message : String) :
    outcome (record level source message : Attempt ε Unit) = .ok () := rfl

@[simp] theorem outcome_recordIf (level : Int) (source : Log.Source) (message : Option String) :
    outcome (recordIf level source message : Attempt ε Unit) = .ok () := rfl

/-! ### The log of an attempt -/

/-- The records that an attempt leaves, however it ends. -/
def log (x : Attempt ε α) : List Log.Record :=
  (ExceptT.run x).log

@[simp] theorem log_pure (a : α) : log (pure a : Attempt ε α) = [] := rfl

@[simp] theorem log_recordIf (level : Int) (source : Log.Source) (message : Option String) :
    log (recordIf level source message : Attempt ε Unit) =
      message.toList.map fun message => { level, source, message } :=
  List.append_nil _

/-- Behind an attempt that succeeds, the log goes on with what follows. -/
theorem log_bind {x : Attempt ε α} {a : α} (h : outcome x = .ok a) (f : α → Attempt ε β) :
    log (x >>= f) = log x ++ log (f a) := by
  change (ExceptT.run x).log ++ (ExceptT.bindCont f (ExceptT.run x).value).log = _
  rw [show (ExceptT.run x).value = .ok a from h]
  rfl

/-- An attempt is what it ends with and what it leaves behind. -/
theorem ext {x y : Attempt ε α} (houtcome : outcome x = outcome y) (hlog : log x = log y) :
    x = y := by
  change (⟨log x, outcome x⟩ : Logged (Except ε α)) = ⟨log y, outcome y⟩
  rw [houtcome, hlog]

end Attempt

end Hocon
