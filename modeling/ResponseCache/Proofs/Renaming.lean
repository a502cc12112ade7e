import ResponseCache.Proofs.Store.Call
/-!
Other identities. Identities are handed around and compared, and nothing else is done with them; so one can ask what
becomes of an answer, an entry or a record when its generation gets another identity.
-/
namespace ResponseCache

namespace Identity

/-- The two identities are exchanged. -/
def exchange (i j k : Identity) : Identity := if k = i then j else if k = j then i else k

theorem exchange_left (i j : Identity) : exchange i j i = j := if_pos rfl

theorem exchange_right (i j : Identity) : exchange i j j = i := by
  unfold exchange
  split
  · rename_i h
    exact h
  · rw [if_pos rfl]

theorem exchange_of_ne {i j k : Identity} (hi : k ≠ i) (hj : k ≠ j) : exchange i j k = k := by
  rw [exchange, if_neg hi, if_neg hj]

end Identity

variable (σ : Identity → Identity)

def Entry.rename (e : Entry) : Entry := { e with identity := σ e.identity }

def Reconciliation.rename (r : Reconciliation) : Reconciliation :=
  { r with entry := r.entry.rename σ, previous := σ r.previous }

def Reply.rename : Reply → Reply
  | .found entry => .found (entry.map (Entry.rename σ))
  | .reconciled r => .reconciled (r.rename σ)
  | .removed identity => .removed (identity.map σ)
  | .emptied n => .emptied n

def Record.rename (r : Record) : Record := { r with identity := σ r.identity }

def Change.rename : Change → Change
  | .store record => .store (record.rename σ)
  | .remove key => .remove key

theorem Change.key_rename (change : Change) : (change.rename σ).key = change.key := by
  cases change <;> rfl

/-- The record of an entry follows its identity. -/
theorem Record.ofEntry_rename (streams : Streams) (e : Entry) :
    Record.ofEntry streams (e.rename σ) = (Record.ofEntry streams e).map (Record.rename σ) := by
  unfold ofEntry Entry.rename
  simp only [bind, Except.bind, pure, Except.pure]
  cases e.alternative with
  | none => cases streams.content e.primary <;> rfl
  | some a =>
    cases halternative : ofAlternative streams a with
    | error error => simp [halternative, Functor.map, Except.map]
    | ok alternative =>
      simp only [halternative, Functor.map, Except.map]
      cases streams.content e.primary <;> rfl

theorem Entry.rename_of_fixed {σ : Identity → Identity} {e : Entry} (h : σ e.identity = e.identity) : e.rename σ = e := by
  rw [rename, h]

theorem Entry.rename_id : Entry.rename id = id := rfl

theorem Record.rename_id : Record.rename id = id := rfl

theorem Change.rename_id : Change.rename id = id := by
  funext change
  cases change <;> rfl

theorem Reply.rename_id : Reply.rename id = id := by
  funext reply
  cases reply with
  | found entry => exact congrArg Reply.found (by rw [Entry.rename_id, Option.map_id, id])
  | reconciled r => rfl
  | removed identity => exact congrArg Reply.removed (by rw [Option.map_id, id])
  | emptied n => rfl

end ResponseCache
