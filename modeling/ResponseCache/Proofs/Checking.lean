import ResponseCache.Proofs.Living
import ResponseCache.Replay

namespace ResponseCache

/-- Why a step fails: the service could not do it, or the client complains of the step, naming it by its number. -/
inductive Complaint
  | service (e : Error)
  | client (what : String)

/-- The complaint about the step with that number. -/
def Complaint.at (n : Nat) : Complaint → Error
  | service e => e
  | client what => .scenario ("step " ++ toString n ++ ": " ++ what)

/-- What an identity is expected to be; names stand for what is remembered under them. -/
def IdentityExpectation.Met (remembered : Table String Identity) (i : Identity) : IdentityExpectation → Prop
  | absent => i = .absent
  | present => i ≠ .absent
  | sameAs name => remembered.get? name = some i
  | differsFrom name => ∃ other, remembered.get? name = some other ∧ i ≠ other

/-- The response is all that it is expected to be. -/
structure Expectation.Met (e : Expectation) (remembered : Table String Identity) (response : Response) : Prop where
  body : ∀ text, e.body = some text → response.body = Text.toBytes text
  alternativeType : ∀ label, e.alternativeType = some label → response.alternativeLabel.getD "" = label
  fromCache : ∀ value, e.fromCache = some value → response.fromCache = value
  cacheEntryId : ∀ expected, e.cacheEntryId = some expected → expected.Met remembered response.cacheEntryId

namespace Replayer

/-- A check goes well if the demand is met; if not, the client complains of the step, whatever its number. -/
inductive Checked {α : Type} (met : Prop) (a : α) (check : Nat → Except Error α) : Prop
  | passed (h : met) (hcheck : ∀ n, check n = .ok a)
  | failed (h : ¬met) (what : String) (hcheck : ∀ n, check n = .error ((Complaint.client what).at n))

section
variable {α β : Type} {met met' : Prop} {a : α} {check : Nat → Except Error α}

theorem Checked.of_iff (h : Checked met a check) (hiff : met ↔ met') : Checked met' a check := by
  cases h with
  | passed h hcheck => exact .passed (hiff.mp h) hcheck
  | failed h what hcheck => exact .failed (fun hmet => h (hiff.mpr hmet)) what hcheck

/-- Of two checks the second one is made if the first one goes well. -/
theorem Checked.bind (h : Checked met a check) {b : β} {next : Nat → α → Except Error β}
    (hnext : Checked met' b fun n => next n a) : Checked (met ∧ met') b fun n => check n >>= next n := by
  cases h with
  | failed h what hcheck => exact .failed (fun hboth => h hboth.1) what fun n => by rw [hcheck n]; rfl
  | passed h hcheck =>
    refine Checked.of_iff ?_ (and_iff_right h).symm
    cases hnext with
    | passed h' hcheck' => exact .passed h' fun n => by rw [hcheck n]; exact hcheck' n
    | failed h' what hcheck' => exact .failed h' what fun n => by rw [hcheck n]; exact hcheck' n

theorem Checked.map (h : Checked met a check) (g : α → β) : Checked met (g a) fun n => (check n).map g := by
  cases h with
  | passed h hcheck => exact .passed h fun n => by rw [hcheck n]; rfl
  | failed h what hcheck => exact .failed h what fun n => by rw [hcheck n]; rfl

/-- Where nothing is demanded there is nothing to complain of. -/
theorem checked_nothing (hmet : met) (a : α) : Checked met a fun _ => .ok a := .passed hmet fun _ => rfl

theorem checked_demand (met : Prop) [Decidable met] (what : String) :
    Checked met () fun n => if met then .ok () else mismatch n what := by
  by_cases h : met
  · exact .passed h fun n => if_pos h
  · exact .failed h what fun n => if_neg h

end

section
variable (r : Replayer) (response : Response)

theorem checked_body (body : Bytes) (expected : Option String) :
    Checked (∀ text, expected = some text → body = Text.toBytes text) () fun n => checkBody n body expected := by
  cases expected with
  | none => exact checked_nothing (by simp) ()
  | some text => exact (checked_demand _ _).of_iff (by simp)

theorem checked_alternativeType (label : String) (expected : Option String) :
    Checked (∀ other, expected = some other → label = other) () fun n => checkAlternativeType n label expected := by
  cases expected with
  | none => exact checked_nothing (by simp) ()
  | some other => exact (checked_demand _ _).of_iff (by simp)

theorem checked_fromCache (fromCache : Bool) (expected : Option Bool) :
    Checked (∀ value, expected = some value → fromCache = value) () fun n => checkFromCache n fromCache expected := by
  cases expected with
  | none => exact checked_nothing (by simp) ()
  | some value => exact (checked_demand _ _).of_iff (by simp)

/-- A name stands for an identity if one is remembered under it. -/
theorem checked_rememberedAs (name : String) : Checked ((r.remembered.get? name).isSome = true)
    ((r.remembered.get? name).getD .absent) fun n => r.rememberedAs n name := by
  unfold rememberedAs
  cases r.remembered.get? name with
  | some other => exact checked_nothing rfl other
  | none =>
    refine .failed (by simp) ("nothing remembered as " ++ Text.quote name) fun n => ?_
    simp only [Complaint.at, String.append_assoc]
    rfl

/-- An identity is as expected if what it is compared with is known and the comparison comes out well. -/
theorem checked_satisfies (i : Identity) (e : IdentityExpectation) : ∃ (known : Prop) (satisfied : Bool),
    (Checked known satisfied fun n => r.satisfies n i e) ∧ (known ∧ satisfied = true ↔ e.Met r.remembered i) := by
  cases e with
  | absent => exact ⟨True, i.isAbsent, checked_nothing trivial _, by simp [IdentityExpectation.Met, i.isAbsent_iff]⟩
  | present =>
    exact ⟨True, !i.isAbsent, checked_nothing trivial _, by simp [IdentityExpectation.Met, ← i.isAbsent_iff]⟩
  | sameAs name =>
    refine ⟨_, _, (r.checked_rememberedAs name).map (i == ·), ?_⟩
    simp only [IdentityExpectation.Met]
    cases r.remembered.get? name with
    | none => simp
    | some other => simpa using eq_comm
  | differsFrom name =>
    refine ⟨_, _, (r.checked_rememberedAs name).map (i != ·), ?_⟩
    simp only [IdentityExpectation.Met]
    cases r.remembered.get? name <;> simp

theorem checked_cacheEntryId (i : Identity) (expected : Option IdentityExpectation) :
    Checked (∀ e, expected = some e → e.Met r.remembered i) () fun n => r.checkCacheEntryId n i expected := by
  cases expected with
  | none => exact checked_nothing (by simp) ()
  | some e =>
    obtain ⟨known, satisfied, hsatisfies, hmet⟩ := r.checked_satisfies i e
    exact (hsatisfies.bind (checked_demand (satisfied = true) _)).of_iff (hmet.trans (by simp))

/-- What is remembered behind a response that was as expected. -/
def remembering (expect : Option Expectation) : Table String Identity :=
  match expect.bind (·.remember) with
  | some name => r.remembered.insert name response.identity
  | none => r.remembered

theorem get?_remembering (expect : Option Expectation) (name : String) : (r.remembering response expect).get? name =
    if expect.bind (·.remember) = some name then some response.identity else r.remembered.get? name := by
  unfold remembering
  cases expect.bind (·.remember) with
  | none => rfl
  | some other => simp [Table.get?_insert]

/-- All that is expected is checked before anything is remembered. -/
theorem checked_expect (expect : Option Expectation) : Checked (∀ e, expect = some e → e.Met r.remembered response)
    { r with remembered := r.remembering response expect } fun n => expect.elim (.ok r) (r.check n response) := by
  cases expect with
  | none => exact checked_nothing (by simp) _
  | some e =>
    have hremember : Checked True { r with remembered := r.remembering response (some e) } fun _ =>
        match e.remember with
        | some name => .ok { r with remembered := r.remembered.insert name response.identity }
        | none => .ok r := by
      unfold remembering
      cases he : e.remember <;> simp only [Option.bind_some, he] <;> exact checked_nothing trivial _
    refine ((checked_body _ _).bind ((checked_alternativeType _ _).bind ((checked_fromCache _ _).bind
      ((r.checked_cacheEntryId _ _).bind hremember)))).of_iff ?_
    constructor
    · rintro ⟨hbody, hlabel, hcache, hid, -⟩ _ ⟨⟩
      exact ⟨hbody, hlabel, hcache, hid⟩
    · intro h
      obtain ⟨hbody, hlabel, hcache, hid⟩ := h e rfl
      exact ⟨hbody, hlabel, hcache, hid, trivial⟩

end

end Replayer
end ResponseCache
