import ResponseCache.Proofs.Sealed
import ResponseCache.Stream.Stage

namespace ResponseCache

/-- What a writer may do with its stream. -/
inductive Act
  | write (bytes : Bytes)
  /-- A write to the stream as a sink of bytes. -/
  | put (bytes : Bytes)
  | finish
  | release
  deriving DecidableEq, Repr

namespace Act

/-- The stage that the act leads to when it is the first to end the writing. -/
def ends? : Act → Option Stage
  | finish => some .sealed
  | release => some .aborted
  | write _ | put _ => none

/-- The bytes that the act offers. -/
def offer : Act → Bytes
  | write bytes => bytes
  | put bytes => bytes
  | finish | release => []

theorem ne_writing {a : Act} {stage : Stage} (h : a.ends? = some stage) : stage ≠ .writing := by
  rintro rfl
  cases a <;> exact absurd h (by simp [ends?])

end Act

/-- The stage after these acts of a writer. -/
def stageAfter (acts : List Act) : Stage := (acts.findSome? Act.ends?).getD .writing

namespace Stage

/-- What is read of a stream that took these bytes in: all of them, or nothing. -/
def reads (taken : Bytes) : Stage → Except Error Bytes
  | writing => .error .streamNotReady
  | sealed => .ok taken
  | aborted => .error .streamAborted

/-- What is told to those who wait for the writer. -/
def tells : Stage → Option (Except Error Unit)
  | writing => none
  | sealed => some (.ok ())
  | aborted => some (.error .streamAborted)

end Stage

namespace Stream

/-- The stream after an act. An act that is refused changes nothing. -/
def act (s : Stream) : Act → Stream
  | .write bytes => (s.write bytes).toOption.getD s
  | .put bytes => ((s.put bytes).map Prod.snd).toOption.getD s
  | .finish => s.finish.toOption.getD s
  | .release => s.release

def after (s : Stream) (acts : List Act) : Stream := acts.foldl act s

/-- The stream accepts these bytes. -/
def Accepts (s : Stream) (bytes : Bytes) : Prop := ∃ s', s.write bytes = .ok s'

instance (s : Stream) (bytes : Bytes) : Decidable (s.Accepts bytes) :=
  decidable_of_iff (s.write bytes).isOk <| by
    unfold Accepts
    cases s.write bytes <;> simp [Except.isOk, Except.toBool]

/-- The bytes of those writes that are accepted, one after the other. -/
def accepted (s : Stream) : List Act → Bytes
  | [] => []
  | a :: rest => (if s.Accepts a.offer then a.offer else []) ++ (s.act a).accepted rest

/-- After the bytes that were taken, these do not lead past the limit. -/
def Fits (limit : Option Nat) (taken bytes : Bytes) : Prop :=
  ∀ most, limit = some most → taken.length + bytes.length ≤ most

instance (limit : Option Nat) (taken bytes : Bytes) : Decidable (Fits limit taken bytes) :=
  decidable_of_iff (limit.all fun most => taken.length + bytes.length ≤ most) <| by
    unfold Fits
    cases limit <;> simp

/-- A stream that took these bytes in, at that stage. -/
def standing (contentType : String) (limit : Option Nat) (taken : Bytes) : Stage → Stream
  | .writing => ⟨contentType, limit, .writing taken⟩
  | .sealed => ⟨contentType, limit, .sealed taken⟩
  | .aborted => ⟨contentType, limit, .aborted⟩

section
variable {contentType : String} {limit : Option Nat} {taken : Bytes} {stage : Stage}

theorem write_standing (bytes : Bytes) : (standing contentType limit taken .writing).write bytes =
    if Fits limit taken bytes then .ok (standing contentType limit (taken ++ bytes) .writing)
    else .error (.streamTooLarge (taken.length + bytes.length) (limit.getD 0)) := by
  cases limit with
  | none =>
    have hfits : Fits none taken bytes := fun _ hnone => absurd hnone (by simp)
    rw [if_pos hfits]
    rfl
  | some most =>
    have hfits : Fits (some most) taken bytes ↔ ¬taken.length + bytes.length > most := by simp [Fits]
    simp only [write, standing, hfits, ite_not, Option.getD_some]

theorem write_of_ended (h : stage ≠ .writing) (bytes : Bytes) :
    (standing contentType limit taken stage).write bytes = .error .streamSealed := by
  cases stage with
  | writing => exact absurd rfl h
  | sealed | aborted => rfl

/-- Only an open stream accepts anything, and what it accepts fits. -/
theorem accepts_standing_iff {bytes : Bytes} :
    (standing contentType limit taken stage).Accepts bytes ↔ stage = .writing ∧ Fits limit taken bytes := by
  unfold Accepts
  by_cases hstage : stage = .writing
  · subst hstage
    rw [write_standing]
    by_cases hfits : Fits limit taken bytes <;> simp [hfits]
  · simp [write_of_ended hstage, hstage]

/-- An act of the writer appends what is accepted of it, and may end the writing. -/
theorem act_standing (a : Act) : (standing contentType limit taken .writing).act a =
    standing contentType limit
      (taken ++ if (standing contentType limit taken .writing).Accepts a.offer then a.offer else [])
      (a.ends?.getD .writing) := by
  cases a with
  | write bytes =>
    by_cases hfits : Fits limit taken bytes <;>
      simp [act, accepts_standing_iff, Act.offer, Act.ends?, write_standing, hfits, Except.toOption]
  | put bytes =>
    by_cases hfits : Fits limit taken bytes <;>
      simp [act, put, accepts_standing_iff, Act.offer, Act.ends?, write_standing, hfits, Except.toOption, Except.map]
  | finish | release =>
    rw [Act.offer, ite_self, List.append_nil]
    rfl

theorem act_of_ended (h : stage ≠ .writing) (a : Act) :
    (standing contentType limit taken stage).act a = standing contentType limit taken stage := by
  cases stage with
  | writing => exact absurd rfl h
  | sealed | aborted => cases a <;> rfl

theorem after_of_ended (h : stage ≠ .writing) (acts : List Act) :
    (standing contentType limit taken stage).after acts = standing contentType limit taken stage := by
  induction acts with
  | nil => rfl
  | cons a rest ih =>
    rw [after, List.foldl_cons, act_of_ended h]
    exact ih

theorem accepted_of_ended (h : stage ≠ .writing) (acts : List Act) :
    (standing contentType limit taken stage).accepted acts = [] := by
  induction acts with
  | nil => rfl
  | cons a rest ih =>
    have hnot : ¬(standing contentType limit taken stage).Accepts a.offer := fun hyes => h (accepts_standing_iff.mp hyes).1
    rw [accepted, if_neg hnot, act_of_ended h, ih, List.append_nil]

/-- The acts of a writer lead to the stage that the first end among them decides, with all bytes that were accepted. -/
theorem after_standing (acts : List Act) : ∀ taken : Bytes,
    (standing contentType limit taken .writing).after acts =
      standing contentType limit (taken ++ (standing contentType limit taken .writing).accepted acts) (stageAfter acts) := by
  induction acts with
  | nil =>
    intro taken
    rw [accepted, List.append_nil]
    rfl
  | cons a rest ih =>
    intro taken
    rw [after, List.foldl_cons, accepted, ← List.append_assoc, act_standing]
    generalize (taken ++ if (standing contentType limit taken .writing).Accepts a.offer then a.offer else []) = taken'
    -- Either the writing goes on with what is taken by now, or this act has ended it and the others change nothing.
    cases hends : a.ends? with
    | none =>
      have hstage : stageAfter (a :: rest) = stageAfter rest := by rw [stageAfter, List.findSome?_cons, hends]; rfl
      rw [hstage]
      exact ih taken'
    | some stage =>
      have hstage : stageAfter (a :: rest) = stage := by rw [stageAfter, List.findSome?_cons, hends]; rfl
      have hended : stage ≠ .writing := Act.ne_writing hends
      rw [hstage, Option.getD_some, accepted_of_ended hended, List.append_nil]
      exact after_of_ended hended rest

/-- What is accepted stays within the limit. -/
theorem fits_accepted (acts : List Act) : ∀ taken : Bytes, Fits limit taken [] →
    Fits limit (taken ++ (standing contentType limit taken .writing).accepted acts) [] := by
  induction acts with
  | nil =>
    intro taken h
    rwa [accepted, List.append_nil]
  | cons a rest ih =>
    intro taken h
    have hnext : Fits limit
        (taken ++ if (standing contentType limit taken .writing).Accepts a.offer then a.offer else []) [] := by
      split
      · rename_i haccepted
        intro most hmost
        rw [List.length_append]
        exact (accepts_standing_iff.mp haccepted).2 most hmost
      · rwa [List.append_nil]
    rw [accepted, ← List.append_assoc, act_standing]
    generalize (taken ++ if (standing contentType limit taken .writing).Accepts a.offer then a.offer else []) = taken' at hnext
    cases hends : a.ends? with
    | none => exact ih taken' hnext
    | some stage =>
      have hended : stage ≠ .writing := Act.ne_writing hends
      rwa [Option.getD_some, accepted_of_ended hended, List.append_nil]

end

/-- All that is seen of a stream that took these bytes in and has come to that stage. -/
structure Shows (s : Stream) (taken : Bytes) (stage : Stage) : Prop where
  stage_eq : s.stage = stage
  isSealed : s.isSealed = true ↔ stage = .sealed
  content : s.content = stage.reads taken
  reader : Reader.ofStream s = (stage.reads taken).map fun data => ⟨data, 0⟩
  poll : s.poll = stage.tells
  length : s.length? = if stage = .sealed then some taken.length else none
  isEmpty : s.isEmpty = true ↔ stage = .sealed ∧ taken = []
  written : s.written = if stage = .aborted then 0 else taken.length

/-- How the writer of such a stream is answered. What is refused leaves no other stream behind. -/
structure Answers (s : Stream) (limit : Option Nat) (taken : Bytes) (stage : Stage) : Prop where
  accepts : ∀ bytes, s.Accepts bytes ↔ stage = .writing ∧ ∀ most, limit = some most → taken.length + bytes.length ≤ most
  tooLarge : ∀ bytes most, stage = .writing → limit = some most → most < taken.length + bytes.length →
    s.write bytes = .error (.streamTooLarge (taken.length + bytes.length) most)
  late : ∀ bytes, stage ≠ .writing → s.write bytes = .error .streamSealed
  put : ∀ bytes, (s.put bytes).map Prod.snd = s.write bytes ∧ ∀ n s', s.put bytes = .ok (n, s') → n = bytes.length
  finish : stage = .writing → ∃ s', s.finish = .ok s' ∧ s'.Shows taken .sealed
  refinish : stage ≠ .writing → s.finish = .error .streamSealed
  release : s.release.Shows taken (if stage = .writing then .aborted else stage)

theorem shows_standing (contentType : String) (limit : Option Nat) (taken : Bytes) (stage : Stage) :
    (standing contentType limit taken stage).Shows taken stage := by
  refine ⟨?_, ?_, ?_, ?_, ?_, ?_, ?_, ?_⟩
  · cases stage <;> rfl
  · cases stage <;> simp [standing, Stream.isSealed]
  · cases stage <;> rfl
  · cases stage <;> rfl
  · cases stage <;> rfl
  · cases stage <;> rfl
  · cases stage <;> simp [standing, Stream.isEmpty, length?]
  · cases stage <;> rfl

theorem answers_standing (contentType : String) (limit : Option Nat) (taken : Bytes) (stage : Stage) :
    (standing contentType limit taken stage).Answers limit taken stage where
  accepts bytes := accepts_standing_iff
  tooLarge bytes most hstage hlimit hover := by
    have hfits : ¬Fits limit taken bytes := fun h => Nat.not_lt.mpr (h most hlimit) hover
    rw [hstage, write_standing, if_neg hfits, hlimit, Option.getD_some]
  late bytes hended := write_of_ended hended bytes
  put bytes := by
    unfold put
    cases (standing contentType limit taken stage).write bytes with
    | error e => exact ⟨rfl, fun n s' h => absurd h (by simp [Except.map])⟩
    | ok s => exact ⟨rfl, fun n s' h => (congrArg Prod.fst (Except.ok.inj h)).symm⟩
  finish hstage := by
    subst hstage
    exact ⟨_, rfl, shows_standing contentType limit taken .sealed⟩
  refinish hended := by
    cases stage with
    | writing => exact absurd rfl hended
    | sealed | aborted => rfl
  release := by
    cases stage with
    | writing => exact shows_standing contentType limit taken .aborted
    | sealed => exact shows_standing contentType limit taken .sealed
    | aborted => exact shows_standing contentType limit taken .aborted

end Stream

namespace Announced

def act (a : Announced) : Act → Announced
  | .write bytes | .put bytes => (a.write bytes).toOption.getD a
  | .finish => a.finish.toOption.getD a
  | .release => a.release

def after (a : Announced) (acts : List Act) : Announced := acts.foldl act a

/-- Every act that moves the stream to another stage announces it. -/
theorem act_eq (stream : Stream) (x : Act) :
    (⟨stream, stream.stage⟩ : Announced).act x = ⟨stream.act x, (stream.act x).stage⟩ := by
  obtain ⟨contentType, limit, phase⟩ := stream
  cases x with
  | finish | release => cases phase <;> rfl
  | write bytes | put bytes =>
    -- A write leaves the stage, whether it is accepted or not.
    cases phase with
    | sealed content => rfl
    | aborted => rfl
    | writing buffer =>
      have hwrite : (⟨contentType, limit, .writing buffer⟩ : Stream).write bytes = _ := Stream.write_standing bytes
      by_cases hfits : Stream.Fits limit buffer bytes
      · rw [if_pos hfits] at hwrite
        simp only [act, write, Stream.act, Stream.put, hwrite]
        rfl
      · rw [if_neg hfits] at hwrite
        simp only [act, write, Stream.act, Stream.put, hwrite]
        rfl

theorem after_eq (acts : List Act) : ∀ stream : Stream,
    (⟨stream, stream.stage⟩ : Announced).after acts = ⟨stream.after acts, (stream.after acts).stage⟩ := by
  induction acts with
  | nil => exact fun _ => rfl
  | cons x rest ih =>
    intro stream
    rw [after, List.foldl_cons, act_eq]
    exact ih (stream.act x)

end Announced

/-- What may happen where streams are kept: a new one comes, or the writer of one acts. -/
inductive Incident
  | opens (stream : Stream)
  | acts (id : StreamId) (a : Act)

/-- The acts on the stream with that handle. -/
def actsOn (id : StreamId) (incidents : List Incident) : List Act :=
  incidents.filterMap fun
    | .acts id' a => if id' = id then some a else none
    | .opens _ => none

namespace Streams

def act (s : Streams) (id : StreamId) : Act → Streams
  | .write bytes => (s.write id bytes).toOption.getD s
  | .put bytes => (s.update id fun stream => (stream.put bytes).map Prod.snd).toOption.getD s
  | .finish => (s.finish id).toOption.getD s
  | .release => s.release id

def meet (s : Streams) : Incident → Streams
  | .opens stream => (s.add stream).2
  | .acts id a => s.act id a

def after (s : Streams) (incidents : List Incident) : Streams := incidents.foldl meet s

theorem get?_attempt (s : Streams) (id : StreamId) (f : Stream → Except Error Stream) (id' : StreamId) :
    ((s.update id f).toOption.getD s).get? id' =
      if id = id' then (s.get? id').map fun stream => (f stream).toOption.getD stream else s.get? id' := by
  unfold update
  cases hold : s.get? id with
  | none =>
    by_cases hid : id = id'
    · rw [if_pos hid, ← hid, hold]
      exact hold
    · rw [if_neg hid]
      rfl
  | some old =>
    cases hnew : f old with
    | error e =>
      simp only [hnew]
      by_cases hid : id = id'
      · rw [if_pos hid, ← hid, hold, Option.map_some, hnew]
        exact hold
      · rw [if_neg hid]
        rfl
    | ok new =>
      simp only [hnew]
      show (s.set id new).get? id' = _
      rw [get?_set]
      by_cases hid : id = id'
      · rw [if_pos hid, if_pos hid, ← hid, hold, Option.map_some, Option.map_some, hnew]
        rfl
      · rw [if_neg hid, if_neg hid]

theorem release_eq_attempt (s : Streams) (id : StreamId) :
    s.release id = (s.update id fun stream => .ok stream.release).toOption.getD s := by
  unfold release update
  cases s.get? id <;> rfl

/-- An act on one stream is an act of its writer, and does not touch the others. -/
theorem get?_act (s : Streams) (id : StreamId) (a : Act) (id' : StreamId) :
    (s.act id a).get? id' = if id = id' then (s.get? id').map fun stream => stream.act a else s.get? id' := by
  cases a with
  | write | put | finish => exact s.get?_attempt id _ id'
  | release =>
    rw [act, release_eq_attempt]
    exact s.get?_attempt id _ id'

/-- A stream lives by the acts on it alone, whatever happens to others meanwhile. -/
theorem get?_after {id : StreamId} (incidents : List Incident) : ∀ {s : Streams} {stream : Stream},
    s.get? id = some stream → (s.after incidents).get? id = some (stream.after (actsOn id incidents)) := by
  induction incidents with
  | nil => exact fun h => h
  | cons x rest ih =>
    intro s stream h
    rw [after, List.foldl_cons]
    cases x with
    | opens new => exact ih (get?_add_of_some h new)
    | acts id' a =>
      have hnext := s.get?_act id' a id
      rw [h] at hnext
      by_cases hid : id' = id
      · rw [if_pos hid, Option.map_some] at hnext
        have hacts : actsOn id (.acts id' a :: rest) = a :: actsOn id rest := by simp [actsOn, hid]
        rw [hacts]
        exact ih hnext
      · rw [if_neg hid] at hnext
        have hacts : actsOn id (.acts id' a :: rest) = actsOn id rest := by simp [actsOn, hid]
        rw [hacts]
        exact ih hnext

/-- A new stream, whatever its writer does with it and whatever happens to others: the acts on it say how far it is and what
it took in, all that is seen of it agrees with that, what it took in keeps to its limit, and once the writing has ended
nothing changes any more. The stage that is announced beside it is the stage that it is in. -/
theorem streams_are_written_once (streams : Streams) (contentType : String) (limit : Option Nat) (incidents : List Incident) :
    let id := (streams.add (.opened contentType limit)).1
    let z := (streams.add (.opened contentType limit)).2.after incidents
    let acts := actsOn id incidents
    let taken := (Stream.opened contentType limit).accepted acts
    let announced := (Announced.opened contentType limit).after acts
    ∃ s, z.get? id = some s ∧ s.Shows taken (stageAfter acts) ∧ s.Answers limit taken (stageAfter acts) ∧
      z.content id = (stageAfter acts).reads taken ∧
      (∀ most, limit = some most → taken.length ≤ most) ∧
      (stageAfter acts ≠ .writing → ∀ later, (z.after later).get? id = some s) ∧
      announced = ⟨s, stageAfter acts⟩ ∧ announced.isSealed = s.isSealed ∧ announced.poll = s.poll := by
  intro id z acts taken announced
  have hs : (Stream.opened contentType limit).after acts = Stream.standing contentType limit taken (stageAfter acts) :=
    Stream.after_standing acts []
  have hget : z.get? id = some (Stream.standing contentType limit taken (stageAfter acts)) := by
    rw [← hs]
    exact get?_after incidents (streams.get?_add_self _)
  have hshows := Stream.shows_standing contentType limit taken (stageAfter acts)
  -- The stage that is announced goes along with the stream.
  have hannounced : announced = ⟨Stream.standing contentType limit taken (stageAfter acts), stageAfter acts⟩ := by
    have hafter := Announced.after_eq acts (Stream.opened contentType limit)
    rw [hs, hshows.stage_eq] at hafter
    exact hafter
  refine ⟨_, hget, hshows, Stream.answers_standing .., ?_, ?_, ?_, hannounced, ?_, ?_⟩
  · rw [content, hget]
    exact hshows.content
  · intro most hmost
    exact Stream.fits_accepted acts [] (fun _ _ => Nat.zero_le _) most hmost
  · intro hended later
    rw [get?_after later hget, Stream.after_of_ended hended]
  · rw [hannounced]
    cases stageAfter acts <;> rfl
  · rw [hannounced]
    cases stageAfter acts <;> rfl

end Streams
end ResponseCache
