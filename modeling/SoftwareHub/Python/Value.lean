import SoftwareHub.Python.Dict
import SoftwareHub.Python.Json

/-! Nested values, as the helpers for logs and audit records take them, and the
places inside them. -/
namespace SoftwareHub.Python

/-- A key of a mapping. Of one that is no string only `str(key)` is read. -/
inductive Key where
  | str (text : PyStr)
  | other (text : PyStr)
  deriving DecidableEq, Repr

/-- `str(key)`. -/
def Key.text : Key → PyStr
  | str text => text
  | other text => text

/-- The values that the helpers pass on as they are. -/
inductive Scalar where
  | none
  | bool (value : Bool)
  | int (value : Int)
  | float (value : PyFloat)
  | str (value : PyStr)
  | strEnum (value : PyStr)
  deriving DecidableEq, Repr

/-- Values of any depth; `bytes` stands for `bytearray` too, and an object of
another class is known by its number. -/
inductive PyValue where
  | scalar (value : Scalar)
  | bytes (data : Bytes)
  | list (items : List PyValue)
  | tuple (items : List PyValue)
  | set (items : List PyValue)
  | mapping (entries : List (Key × PyValue))
  | object (number : Nat)
  deriving Repr

namespace PyValue

/-- A step into a value: `value[key]` or `value[index]`. -/
inductive Step where
  | key (text : PyStr)
  | index (i : Nat)
  deriving DecidableEq, Repr

/-- The entry of a mapping under a string key, or nothing when there is none. -/
def child? (text : PyStr) (entries : List (Key × PyValue)) : Option PyValue :=
  (entries.find? fun entry => entry.1 = .str text).map (·.2)

/-- What stands at a place inside a value, if the place exists. -/
def at? : List Step → PyValue → Option PyValue
  | [], value => some value
  | .key text :: path, .mapping entries => (child? text entries).bind (at? path)
  | .index i :: path, .list items => items[i]?.bind (at? path)
  | .index i :: path, .tuple items => items[i]?.bind (at? path)
  | _ :: _, _ => none

/-- Mappings with string keys, lists, tuples and scalars, nested in any way: what a
call of the logger hands over. -/
inductive Plain : PyValue → Prop
  | scalar (value : Scalar) : Plain (.scalar value)
  | list {items : List PyValue} (h : ∀ item ∈ items, Plain item) : Plain (.list items)
  | tuple {items : List PyValue} (h : ∀ item ∈ items, Plain item) : Plain (.tuple items)
  | mapping {entries : List (Key × PyValue)} (hNodup : (entries.map Prod.fst).Nodup)
      (hKeys : ∀ entry ∈ entries, entry.1 = .str entry.1.text) (h : ∀ entry ∈ entries, Plain entry.2) :
      Plain (.mapping entries)

/-- Two values are equal but for what stands under hidden keys. The entries
of a mapping may have been written in another order, as far as `order` allows. -/
inductive Agree (hidden : PyStr → Prop) (order : List (Key × PyValue) → List (Key × PyValue) → Prop) :
    PyValue → PyValue → Prop
  | scalar (value : Scalar) : Agree hidden order (.scalar value) (.scalar value)
  | list {xs ys : List PyValue} (hLength : xs.length = ys.length)
      (h : ∀ (i : Nat) x y, xs[i]? = some x → ys[i]? = some y → Agree hidden order x y) :
      Agree hidden order (.list xs) (.list ys)
  | tuple {xs ys : List PyValue} (hLength : xs.length = ys.length)
      (h : ∀ (i : Nat) x y, xs[i]? = some x → ys[i]? = some y → Agree hidden order x y) :
      Agree hidden order (.tuple xs) (.tuple ys)
  | mapping {xs zs ys : List (Key × PyValue)} (hNodup : (xs.map Prod.fst).Nodup)
      (hStrings : ∀ entry ∈ xs, entry.1 = .str entry.1.text) (hOrder : order xs zs)
      (hKeys : zs.map Prod.fst = ys.map Prod.fst)
      (h : ∀ (i : Nat) x y, zs[i]? = some x → ys[i]? = some y → ¬hidden x.1.text → Agree hidden order x.2 y.2) :
      Agree hidden order (.mapping xs) (.mapping ys)

/-- Values that agree everywhere, in the same order, are the same: with nothing
hidden, agreement is equality. -/
theorem eq_of_agree {v w : PyValue} (h : Agree (fun _ => False) Eq v w) : v = w := by
  induction h with
  | scalar value => rfl
  | list hLength _ ih =>
      refine congrArg PyValue.list (List.ext_getElem hLength fun i hx hy => ?_)
      exact ih i _ _ (List.getElem?_eq_getElem hx) (List.getElem?_eq_getElem hy)
  | tuple hLength _ ih =>
      refine congrArg PyValue.tuple (List.ext_getElem hLength fun i hx hy => ?_)
      exact ih i _ _ (List.getElem?_eq_getElem hx) (List.getElem?_eq_getElem hy)
  | @mapping xs zs ys _ _ hOrder hKeys _ ih =>
      subst hOrder
      have hLength : xs.length = ys.length := by simpa using congrArg List.length hKeys
      refine congrArg PyValue.mapping (List.ext_getElem hLength fun i hx hy => Prod.ext ?_ ?_)
      · have hKey := congrArg (·[i]?) hKeys
        simpa [List.getElem?_map, List.getElem?_eq_getElem hx, List.getElem?_eq_getElem hy] using hKey
      · exact ih i _ _ (List.getElem?_eq_getElem hx) (List.getElem?_eq_getElem hy) not_false

end PyValue
end SoftwareHub.Python
