import Mathlib.Logic.Basic
import Mathlib.Tactic.SplitIfs

/-! The exceptions that the services raise, catch or let through, which calls can
raise which of them, and the integers that the database driver refuses. -/
namespace SoftwareHub.Python

/-- The classes of `app.core.exceptions` in use. The routes turn each of them into a
response. -/
inductive ApplicationError where
  | entityNotFound
  | entityConflict
  | payloadTooLarge
  | validationError
  | invalidStateTransition
  | fileValidationError
  | storageError
  | duplicateFileError
  | csrfError
  deriving DecidableEq, Repr

/-- Subclasses of `OSError` that the code tells apart; `other` is any errno without
a class of its own. -/
inductive OSError where
  | fileNotFoundError
  | fileExistsError
  | notADirectoryError
  | isADirectoryError
  | directoryNotEmpty
  | shutilError
  | other
  deriving DecidableEq, Repr

/-- Subclasses of `Exception`: those of the application, those of the operating
system, and the built-in ones that the code can meet. -/
inductive PyException where
  | application (kind : ApplicationError) (message : String)
  | os (kind : OSError)
  | unicodeDecodeError
  | unicodeEncodeError
  | valueError
  | overflowError
  | recursionError
  | databaseError
  | integrityError
  | attributeError
  | typeError
  | runtimeError (message : String)
  deriving DecidableEq, Repr

/-- Everything that can be raised; `except Exception` lets the interrupts through. -/
inductive BaseException where
  | exception (e : PyException)
  | keyboardInterrupt
  | systemExit
  deriving DecidableEq, Repr

namespace PyException

/-- `raise StorageError(message)`. -/
abbrev storageError (message : String) : PyException := application .storageError message

/-- `raise ValidationError(message)`. -/
abbrev validationError (message : String) : PyException := application .validationError message

def isOSError : PyException → Bool
  | os _ => true
  | _ => false

/-- Whether `except (StorageError, ValidationError)` catches it. -/
def isInvalidEntry : PyException → Bool
  | application .storageError _ => true
  | application .validationError _ => true
  | _ => false

end PyException

/-- `if not c: raise e`, the form of most checks in the services. -/
def require (c : Prop) [Decidable c] (e : PyException) : Except PyException Unit :=
  if c then .ok () else .error e

theorem require_eq_ok_iff {c : Prop} [Decidable c] {e : PyException} {u : Unit} :
    require c e = .ok u ↔ c := by
  by_cases h : c <;> simp [require, h]

theorem require_ok {c : Prop} [Decidable c] {e : PyException} (h : c) : require c e = .ok () := if_pos h

/-- A number that fits the 64 bits, one of them for the sign, in which SQLite stores
an integer. The driver raises `OverflowError` for any other. -/
def isBindable : Int → Bool
  | .ofNat n => n < 0x8000000000000000
  | .negSucc n => n < 0x8000000000000000

/-- The driver takes the integers from `-2 ** 63` up to `2 ** 63 - 1`. -/
theorem isBindable_iff {value : Int} :
    isBindable value = true ↔ -0x8000000000000000 ≤ value ∧ value < 0x8000000000000000 := by
  cases value with
  | ofNat n =>
      simp only [isBindable, decide_eq_true_eq, Int.ofNat_eq_natCast]
      omega
  | negSucc n =>
      simp only [isBindable, decide_eq_true_eq]
      omega

/-- The numbers of a statement are bound before it runs. One that does not fit
raises, and the statement is not run. -/
def bindAll (parameters : List Int) : Except PyException Unit :=
  require (∀ value ∈ parameters, isBindable value = true) .overflowError

/-- The numbers of a statement that looks rows up by their keys; identifiers are
never negative. -/
def bindKeys (ids : List Nat) : Except PyException Unit := bindAll (ids.map fun id : Nat => (id : Int))

def PyException.isApplication : PyException → Bool
  | .application _ _ => true
  | _ => false

/-- Code in sequence raises what its parts raise, so that a property of exceptions
is checked part by part. -/
theorem forall_error_bind {α γ : Type} {E : PyException → Prop} {x : Except PyException α} {f : α → Except PyException γ}
    (hx : ∀ e, x = .error e → E e) (hf : ∀ a e, f a = .error e → E e) : ∀ e, (x >>= f) = .error e → E e := by
  intro e h
  cases x with
  | error other => exact hx e (by cases h; rfl)
  | ok a => exact hf a e h

/-- Nothing but application errors can be raised: a handler for `ApplicationError`
is enough. -/
def RaisesApplication {α : Type} (x : Except PyException α) : Prop := ∀ e, x = .error e → e.isApplication = true

namespace RaisesApplication

variable {α γ : Type}

theorem ok (a : α) : RaisesApplication (.ok a) := fun e h => by cases h

theorem error {e : PyException} (he : e.isApplication = true) : RaisesApplication (.error e : Except PyException α) :=
  fun other h => by cases h; exact he

theorem require {c : Prop} [Decidable c] {e : PyException} (he : e.isApplication = true) :
    RaisesApplication (require c e) := by
  unfold Python.require
  split_ifs
  · exact ok ()
  · exact error he

theorem bind {x : Except PyException α} {f : α → Except PyException γ} (hx : RaisesApplication x)
    (hf : ∀ a, RaisesApplication (f a)) : RaisesApplication (x >>= f) := forall_error_bind hx hf

/-- Application errors are no `IntegrityError`, so that a handler for the latter
sees the database alone. -/
theorem ne_integrityError {x : Except PyException α} (h : RaisesApplication x) {e : PyException} (he : x = .error e) :
    e ≠ .integrityError := by
  rintro rfl
  cases h _ he

end RaisesApplication

/-- A number that can not be bound is an `OverflowError`, which no handler takes for
a violated constraint. -/
theorem bindAll_ne_integrityError {parameters : List Int} {e : PyException} (he : bindAll parameters = .error e) :
    e ≠ .integrityError := by
  unfold bindAll require at he
  split_ifs at he
  cases he
  simp

end SoftwareHub.Python
