import Mathlib.Data.Set.Card
import ResponseCache.Proofs.Weight

namespace ResponseCache

/-- What the last of these changes left under a key. -/
def leftUnder (key : Key) (changes : List Change) : Option Record :=
  (changes.filter fun change => change.key = key).getLast?.bind Change.record?

theorem leftUnder_concat (key : Key) (changes : List Change) (change : Change) :
    leftUnder key (changes ++ [change]) = if change.key = key then change.record? else leftUnder key changes := by
  unfold leftUnder
  by_cases hk : change.key = key <;> simp [hk]

namespace Backend

/-- All that a backend may be asked. -/
inductive Call
  | op (op : Op)
  | load

inductive Reply
  | done
  /-- The answer to a change: for a removal, whether there was a record. -/
  | made (found : Bool)
  | listed (records : List Record)

/-- What a call answers and leaves. Only changes can be refused. -/
def call (b : Backend) : Call → Except Error Reply × Backend
  | .op (.change change) => ((b.apply change).1.map .made, (b.apply change).2)
  | .op (.insert record) => (.ok .done, b.insert record)
  | .op (.failNext n) => (.ok .done, b.failNext n)
  | .load => (.ok (.listed b.load), b)

def after (b : Backend) (calls : List Call) : Backend := calls.foldl (fun b c => (b.call c).2) b

/-- Calls with their answers. -/
def told (b : Backend) : List Call → List (Call × Except Error Reply)
  | [] => []
  | c :: rest => (c, (b.call c).1) :: (b.call c).2.told rest

def Call.isFailNext : Call → Bool
  | .op (.failNext _) => true
  | _ => false

/-- The change that a call makes when it is not refused. -/
def Call.change? : Call → Option Change
  | .op (.change change) => some change
  | .op (.insert record) => some (.store record)
  | _ => none

/-- The change that a call has made, by its answer. -/
def made? : Call × Except Error Reply → Option Change
  | (c, .ok _) => c.change?
  | (_, .error _) => none

/-- A record was stored and that was not refused. -/
def isWrite : Call × Except Error Reply → Bool
  | (.op (.change (.store _)), .ok _) => true
  | _ => false

/-- A record was removed, or was not there to be removed, and that was not refused. -/
def isDelete : Call × Except Error Reply → Bool
  | (.op (.change (.remove _)), .ok _) => true
  | _ => false

section
variable (b : Backend)

/-- How a call ends: a change is refused, or something is done. -/
inductive Called (b : Backend) : Call → Except Error Reply × Backend → Prop
  | refused (change : Change) (h : 0 < b.failing) : b.Called (.op (.change change))
      (.error (.persistence ("injected " ++ change.verb ++ " failure for " ++ change.key.display)),
        { b with failing := b.failing - 1 })
  | stored (record : Record) (h : b.failing = 0) : b.Called (.op (.change (.store record)))
      (.ok (.made true), { b.insert record with writes := b.writes + 1 })
  | removed (key : Key) (h : b.failing = 0) : b.Called (.op (.change (.remove key)))
      (.ok (.made (b.get? key).isSome), { b.erase key with deletes := b.deletes + 1 })
  | inserted (record : Record) : b.Called (.op (.insert record)) (.ok .done, b.insert record)
  | armed (n : Nat) : b.Called (.op (.failNext n)) (.ok .done, { b with failing := n })
  | listed : b.Called .load (.ok (.listed b.load), b)

theorem called (c : Call) : b.Called c (b.call c) := by
  cases c with
  | load => exact .listed
  | op op =>
    cases op with
    | insert record => exact .inserted record
    | failNext n => exact .armed n
    | change change =>
      by_cases h : 0 < b.failing
      · have hcall : b.call (.op (.change change)) =
            (.error (.persistence ("injected " ++ change.verb ++ " failure for " ++ change.key.display)),
              { b with failing := b.failing - 1 }) := by
          simp [call, apply, h, Except.map]
        rw [hcall]
        exact .refused change h
      · have hzero : b.failing = 0 := Nat.eq_zero_of_not_pos h
        cases change with
        | store record =>
          have hcall : b.call (.op (.change (.store record))) =
              (.ok (.made true), { b.insert record with writes := b.writes + 1 }) := by
            simp [call, apply, hzero, Except.map]
          rw [hcall]
          exact .stored record hzero
        | remove key =>
          have hcall : b.call (.op (.change (.remove key))) =
              (.ok (.made (b.get? key).isSome), { b.erase key with deletes := b.deletes + 1 }) := by
            simp [call, apply, hzero, Except.map]
          rw [hcall]
          exact .removed key hzero

end

/-- The records, their bytes and the counters are those that these calls with their answers tell of. -/
structure Accounted (b : Backend) (told : List (Call × Except Error Reply)) : Prop where
  weighed : b.Weighed
  held : ∀ key, b.get? key = leftUnder key (told.filterMap made?)
  writes : b.writes = told.countP isWrite
  deletes : b.deletes = told.countP isDelete

section
variable {b : Backend} {told : List (Call × Except Error Reply)}

/-- A change that was made shows under its own key. -/
theorem Accounted.get?_applyTo (h : b.Accounted told) (change : Change) (key : Key) :
    (change.applyTo b.records).get? key = leftUnder key (told.filterMap made? ++ [change]) := by
  rw [change.get?_applyTo, leftUnder_concat]
  split
  · rfl
  · exact h.held key

/-- One more call with its answer, after which the backend holds and has counted what this tells of. -/
theorem Accounted.concat {b' : Backend} (h : b.Accounted told) (e : Call × Except Error Reply) (hweighed : b'.Weighed)
    (hheld : ∀ key, b'.get? key = leftUnder key (told.filterMap made? ++ (made? e).toList))
    (hwrites : b'.writes = b.writes + (isWrite e).toNat) (hdeletes : b'.deletes = b.deletes + (isDelete e).toNat) :
    b'.Accounted (told ++ [e]) := by
  have hmade : (told ++ [e]).filterMap made? = told.filterMap made? ++ (made? e).toList := by
    rw [List.filterMap_append]
    cases hchange : made? e <;> simp [hchange]
  have hcount (p : Call × Except Error Reply → Bool) : (told ++ [e]).countP p = told.countP p + (p e).toNat := by
    cases hp : p e <;> simp [hp]
  refine ⟨hweighed, ?_, ?_, ?_⟩
  · rw [hmade]
    exact hheld
  · rw [hwrites, h.writes, hcount]
  · rw [hdeletes, h.deletes, hcount]

/-- A call that makes no change is told of by nothing. -/
theorem Accounted.get?_eq (h : b.Accounted told) (key : Key) :
    b.get? key = leftUnder key (told.filterMap made? ++ (none : Option Change).toList) := by
  rw [Option.toList_none, List.append_nil]
  exact h.held key

theorem Accounted.call (h : b.Accounted told) (c : Call) : (b.call c).2.Accounted (told ++ [(c, (b.call c).1)]) := by
  have hcalled := b.called c
  generalize b.call c = result at hcalled ⊢
  cases hcalled with
  | refused change hfailing =>
    cases change <;> exact h.concat _ ⟨h.weighed.distinct, h.weighed.total⟩ h.get?_eq rfl rfl
  | stored record hfailing =>
    have hweighed := (h.weighed.totalBytes_insert record).2
    exact h.concat _ ⟨hweighed.distinct, hweighed.total⟩ (h.get?_applyTo (.store record)) rfl rfl
  | removed key hfailing =>
    have hweighed := (h.weighed.totalBytes_erase key).2
    exact h.concat _ ⟨hweighed.distinct, hweighed.total⟩ (h.get?_applyTo (.remove key)) rfl rfl
  | inserted record => exact h.concat _ (h.weighed.totalBytes_insert record).2 (h.get?_applyTo (.store record)) rfl rfl
  | armed n => exact h.concat _ ⟨h.weighed.distinct, h.weighed.total⟩ h.get?_eq rfl rfl
  | listed => exact h.concat _ h.weighed h.get?_eq rfl rfl

theorem key_eq_of_leftUnder {key : Key} {changes : List Change} {record : Record}
    (h : leftUnder key changes = some record) : record.key = key := by
  obtain ⟨change, hlast, hrecord⟩ := Option.bind_eq_some_iff.mp h
  have hmem := List.mem_filter.mp (List.mem_of_getLast? hlast)
  cases change with
  | store left =>
    obtain rfl : left = record := Option.some.inj hrecord
    exact of_decide_eq_true hmem.2
  | remove old => exact absurd hrecord (by simp [Change.record?])

/-- All records are listed, each one once. -/
theorem Accounted.mem_load_iff (h : b.Accounted told) (record : Record) :
    record ∈ b.load ↔ leftUnder record.key (told.filterMap made?) = some record := by
  have hrow (key : Key) : (key, record) ∈ b.records.rows ↔ leftUnder key (told.filterMap made?) = some record := by
    rw [← h.held]
    exact (b.records.get?_eq_some_iff h.weighed.distinct key record).symm
  constructor
  · intro hmem
    obtain ⟨⟨key, value⟩, hkey, rfl⟩ := List.mem_map.mp hmem
    have hleft := (hrow key).mp hkey
    rw [key_eq_of_leftUnder hleft]
    exact hleft
  · exact fun hleft => List.mem_map.mpr ⟨_, (hrow record.key).mpr hleft, rfl⟩

end

section
variable (b : Backend)

end

end Backend
end ResponseCache
