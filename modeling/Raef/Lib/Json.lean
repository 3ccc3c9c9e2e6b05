import Raef.Lib.Num

/-!
# JSON values as Python dictionaries and lists

`JsonObject` is a `dict` with string keys; `get` is `dict.get`, `set` and
`erase` are item assignment and `pop`.  `Json.pyEq` is Python's `==`: numbers
compare across `bool`, `int` and `float`, objects ignore the order of keys.  It
is reflexive on values that are JSON proper (`Json.Wf`: no NaN, no key twice).
-/

namespace Raef

inductive Json where
  | null
  | bool (b : Bool)
  | int (n : ℤ)
  | float (x : PyFloat)
  | str (s : String)
  | arr (xs : List Json)
  | obj (fields : List (String × Json))
deriving Repr, Inhabited

abbrev JsonObject := List (String × Json)

namespace JsonObject

def get (o : JsonObject) (key : String) : Option Json := o.lookup key

/-- `o[key] = v`: in place when the key is there, else at the end. -/
def set (key : String) (v : Json) : JsonObject → JsonObject
  | [] => [(key, v)]
  | (k, w) :: o => if k = key then (key, v) :: o else (k, w) :: set key v o

/-- `o.pop(key, None)`. -/
def erase (key : String) (o : JsonObject) : JsonObject := o.filter fun e => e.1 ≠ key

@[simp] theorem get_nil (key : String) : get [] key = none := rfl

theorem get_set_self (key : String) (v : Json) (o : JsonObject) : (o.set key v).get key = some v := by
  induction o with
  | nil => simp [set, get]
  | cons e o ih =>
    obtain ⟨k, w⟩ := e
    unfold set
    split
    · simp [get]
    · next h =>
      have hne : (key == k) = false := by simpa using fun e => h e.symm
      simp only [get] at ih ⊢
      rw [List.lookup_cons, hne]
      exact ih

theorem get_set_ne {key key' : String} (h : key' ≠ key) (v : Json) (o : JsonObject) :
    (o.set key v).get key' = o.get key' := by
  induction o with
  | nil => simp [set, get, h]
  | cons e o ih =>
    obtain ⟨k, w⟩ := e
    unfold get at ih ⊢
    unfold set
    split
    · next hk =>
      subst hk
      rw [List.lookup_cons, List.lookup_cons, beq_false_of_ne h]
    · rw [List.lookup_cons, List.lookup_cons, ih]

theorem get_erase_self (key : String) (o : JsonObject) : (o.erase key).get key = none := by
  unfold get erase
  rw [List.lookup_eq_none_iff]
  intro e he
  have hne : e.1 ≠ key := by simpa using (List.mem_filter.1 he).2
  simpa using fun h => hne h.symm

theorem erase_of_absent {key : String} {o : JsonObject} (h : o.get key = none) : o.erase key = o := by
  refine List.filter_eq_self.2 fun e he => ?_
  have hne : key ≠ e.1 := by simpa using List.lookup_eq_none_iff.1 h e he
  simpa using fun heq => hne heq.symm

end JsonObject

namespace Json

/-! ## Python's `==` -/

def ofBool (b : Bool) : ℤ := if b then 1 else 0

mutual

/-- `x == y`.  Objects: same size, and every key of the left at an equal value on the right. -/
def pyEq : Json → Json → Bool
  | .null, .null => true
  | .bool a, .bool b => a == b
  | .bool a, .int n | .int n, .bool a => ofBool a == n
  | .bool a, .float x | .float x, .bool a => x.eqInt (ofBool a)
  | .int m, .int n => m == n
  | .int n, .float x | .float x, .int n => x.eqInt n
  | .float x, .float y => x.eq y
  | .str s, .str t => s == t
  | .arr xs, .arr ys => pyEqList xs ys
  | .obj a, .obj b => a.length == b.length && pyEqFields a b
  | _, _ => false

def pyEqList : List Json → List Json → Bool
  | [], [] => true
  | x :: xs, y :: ys => pyEq x y && pyEqList xs ys
  | _, _ => false

def pyEqFields : List (String × Json) → List (String × Json) → Bool
  | [], _ => true
  | (k, v) :: a, b =>
    (match b.lookup k with
      | some w => pyEq v w
      | none => false) && pyEqFields a b

end

/-- The elements two dictionaries are compared by: one object, or two that are `==`. -/
def Same (x y : Json) : Prop := x = y ∨ x.pyEq y = true

theorem eq_null_of_pyEq {y : Json} (h : pyEq .null y = true) : y = .null := by
  cases y <;> simp_all [pyEq]

theorem pyEqList_length {xs ys : List Json} (h : pyEqList xs ys = true) : xs.length = ys.length := by
  induction xs generalizing ys with
  | nil =>
    match ys with
    | [] => rfl
    | _ :: _ => simp [pyEqList] at h
  | cons x xs ih =>
    match ys with
    | [] => simp [pyEqList] at h
    | y :: ys =>
      rw [pyEqList, Bool.and_eq_true] at h
      rw [List.length_cons, List.length_cons, ih h.2]

/-- A list is never the same as the list with one more element. -/
theorem not_same_append (xs : List Json) (y : Json) : ¬ Same (.arr xs) (.arr (xs ++ [y])) := by
  rintro (h | h)
  · have := congrArg List.length (Json.arr.inj h)
    simp at this
  · rw [pyEq] at h
    have := pyEqList_length h
    simp at this

mutual

/-- JSON proper: no NaN anywhere and no object with a key twice. -/
def wf : Json → Bool
  | .float x => x != .nan
  | .arr xs => wfList xs
  | .obj fields => decide (fields.map Prod.fst).Nodup && wfFields fields
  | _ => true

def wfList : List Json → Bool
  | [] => true
  | x :: xs => wf x && wfList xs

def wfFields : List (String × Json) → Bool
  | [] => true
  | (_, v) :: fs => wf v && wfFields fs

end

theorem eq_self_of_ne_nan {x : PyFloat} (h : x ≠ .nan) : x.eq x = true := by
  cases x <;> simp_all [PyFloat.eq]

theorem lookup_of_mem_nodup {b : List (String × Json)} (h : (b.map Prod.fst).Nodup) {k : String}
    {v : Json} (hm : (k, v) ∈ b) : b.lookup k = some v := by
  induction b with
  | nil => simp at hm
  | cons e b ih =>
    obtain ⟨k', v'⟩ := e
    rw [List.map_cons, List.nodup_cons] at h
    rw [List.lookup_cons]
    rcases List.mem_cons.1 hm with he | ht
    · cases he; simp
    · have hne : k ≠ k' := by
        rintro rfl
        exact h.1 (List.mem_map.2 ⟨(k, v), ht, rfl⟩)
      rw [beq_false_of_ne hne]
      exact ih h.2 ht

mutual

/-- Python's `==` is reflexive on JSON proper. -/
theorem pyEq_refl (x : Json) (h : wf x = true) : pyEq x x = true := by
  match x with
  | .null => simp [pyEq]
  | .bool b => simp [pyEq]
  | .int n => simp [pyEq]
  | .float x =>
    rw [pyEq]
    exact eq_self_of_ne_nan (by simpa [wf] using h)
  | .str s => simp [pyEq]
  | .arr xs =>
    rw [pyEq]
    exact pyEqList_refl xs (by simpa [wf] using h)
  | .obj fields =>
    simp only [wf, Bool.and_eq_true, decide_eq_true_eq] at h
    rw [pyEq, beq_self_eq_true, Bool.true_and]
    exact pyEqFields_sub fields fields h.2 (fun e he => lookup_of_mem_nodup h.1 he)

theorem pyEqList_refl (xs : List Json) (h : wfList xs = true) : pyEqList xs xs = true := by
  match xs with
  | [] => simp [pyEqList]
  | x :: xs =>
    simp only [wfList, Bool.and_eq_true] at h
    rw [pyEqList, pyEq_refl x h.1, pyEqList_refl xs h.2]
    rfl

/-- Each field of `a` is found in `b` at its own value. -/
theorem pyEqFields_sub (a b : List (String × Json)) (h : wfFields a = true)
    (hb : ∀ e ∈ a, b.lookup e.1 = some e.2) : pyEqFields a b = true := by
  match a with
  | [] => simp [pyEqFields]
  | (k, v) :: a =>
    simp only [wfFields, Bool.and_eq_true] at h
    rw [pyEqFields, hb (k, v) List.mem_cons_self]
    simp only [Bool.and_eq_true]
    exact ⟨pyEq_refl v h.1, pyEqFields_sub a b h.2 fun e he => hb e (List.mem_cons_of_mem _ he)⟩

end

/-! ## Sorted keys -/

mutual

/-- `json.loads(json.dumps(x, sort_keys=True))`: the keys of every object in order. -/
def sortKeys : Json → Json
  | .arr xs => .arr (sortKeysList xs)
  | .obj fields => .obj ((sortKeysFields fields).insertionSort fun a b => a.1 ≤ b.1)
  | x => x

def sortKeysList : List Json → List Json
  | [] => []
  | x :: xs => sortKeys x :: sortKeysList xs

def sortKeysFields : List (String × Json) → List (String × Json)
  | [] => []
  | (k, v) :: fs => (k, sortKeys v) :: sortKeysFields fs

end

/-! ## `json.dumps(sort_keys=True, separators=(",", ":"), ensure_ascii=True)` -/

def hex4 (n : Nat) : List Char :=
  let d := Nat.toDigits 16 n
  '\\' :: 'u' :: (List.replicate (4 - d.length) '0' ++ d)

def escapeChar (c : Char) : List Char :=
  let n := c.toNat
  if c == '"' then ['\\', '"']
  else if c == '\\' then ['\\', '\\']
  else if n == 10 then ['\\', 'n']
  else if n == 13 then ['\\', 'r']
  else if n == 9 then ['\\', 't']
  else if n == 12 then ['\\', 'f']
  else if n == 8 then ['\\', 'b']
  else if 32 ≤ n && n ≤ 126 then [c]
  else if n < 0x10000 then hex4 n
  else hex4 (0xD800 + (n - 0x10000) / 0x400) ++ hex4 (0xDC00 + (n - 0x10000) % 0x400)

def dumpsStr (s : String) : String :=
  String.ofList ('"' :: (s.toList.flatMap escapeChar ++ ['"']))

mutual

def dumps : Json → String
  | .null => "null"
  | .bool b => if b then "true" else "false"
  | .int n => toString n
  | .float x => x.repr
  | .str s => dumpsStr s
  | .arr xs => "[" ++ ",".intercalate (dumpsList xs) ++ "]"
  | .obj fields =>
    "\x7b" ++ ",".intercalate (((dumpsFields fields).insertionSort fun a b => a.1 ≤ b.1).map
      fun e => dumpsStr e.1 ++ ":" ++ e.2) ++ "\x7d"

def dumpsList : List Json → List String
  | [] => []
  | x :: xs => dumps x :: dumpsList xs

def dumpsFields : List (String × Json) → List (String × String)
  | [] => []
  | (k, v) :: fs => (k, dumps v) :: dumpsFields fs

end

mutual

/-- What `json.dumps` raises, at a nesting that leaves room for so many more levels. -/
def checkDumps (digits : ℕ) : ℕ → Json → Except PyError Unit
  | _, .int n =>
    if (Nat.toDigits 10 n.natAbs).length ≤ digits then .ok ()
    else .error (.value s!"Exceeds the limit ({digits} digits) for integer string conversion")
  | 0, .arr _ | 0, .obj _ =>
    .error (.recursion "maximum recursion depth exceeded while encoding a JSON object")
  | nesting + 1, .arr xs => checkDumpsList digits nesting xs
  | nesting + 1, .obj fields => checkDumpsFields digits nesting fields
  | _, _ => .ok ()

def checkDumpsList (digits : ℕ) : ℕ → List Json → Except PyError Unit
  | _, [] => .ok ()
  | nesting, x :: xs => do
    checkDumps digits nesting x
    checkDumpsList digits nesting xs

def checkDumpsFields (digits : ℕ) : ℕ → List (String × Json) → Except PyError Unit
  | _, [] => .ok ()
  | nesting, (_, v) :: fields => do
    checkDumps digits nesting v
    checkDumpsFields digits nesting fields

end

/-- The text of an object starts and ends with a brace, so it is never blank. -/
theorem trimmed_dumps_obj (fields : List (String × Json)) : Text.Trimmed (dumps (.obj fields)) := by
  rw [Text.Trimmed, Text.strip_eq_self_iff, dumps]
  simp only [String.toList_append]
  generalize (",".intercalate _).toList = l
  have hlast : ("\x7b".toList ++ l ++ "\x7d".toList).getLast? = some '}' := List.getLast?_concat
  rw [hlast]
  simp only [Option.mem_def, Option.some.injEq, forall_eq']
  refine ⟨fun c hc => ?_, by decide⟩
  obtain rfl : '{' = c := by simpa using hc
  decide

theorem dumps_obj_ne_empty (fields : List (String × Json)) : dumps (.obj fields) ≠ "" := by
  rw [dumps]
  simp

end Json

/-- `json.dumps` of an object, as far as it can raise. -/
def PyLimits.dumps (limits : PyLimits) (payload : JsonObject) : Except PyError Unit :=
  Json.checkDumpsFields limits.intDigits limits.nesting payload

end Raef
