import ResponseCache.Stream

namespace ResponseCache.Reader

/-- The reader stands within the content or at its end. -/
def Within (r : Reader) : Prop := r.position ≤ r.data.length

/-- The bytes that come next, at most so many. -/
def next (r : Reader) (most : Nat) : Bytes := (r.data.drop r.position).take most

/-- The reader behind them. -/
def advanced (r : Reader) (most : Nat) : Reader := { r with position := r.position + min most r.remaining }

theorem Within.position_add_remaining {r : Reader} (h : r.Within) : r.position + r.remaining = r.data.length :=
  Nat.add_sub_of_le h

theorem length_next (r : Reader) (most : Nat) : (r.next most).length = min most r.remaining := by
  rw [next, List.length_take, List.length_drop, remaining]

theorem Within.advanced {r : Reader} (h : r.Within) (most : Nat) : (r.advanced most).Within := by
  have hle := h.position_add_remaining
  show r.position + min most r.remaining ≤ r.data.length
  omega

theorem Within.nextChunk_eq {r : Reader} (h : r.Within) (most : Nat) :
    r.nextChunk most = (if most = 0 ∨ r.remaining = 0 then none else some (r.next most), r.advanced most) := by
  have hle := h.position_add_remaining
  by_cases hnone : most = 0 ∨ r.remaining = 0
  · have hstay : r.advanced most = r := by
      have hzero : min most r.remaining = 0 := by omega
      rw [Reader.advanced, hzero, Nat.add_zero]
    have hcond : (r.data.length ≤ r.position || most = 0 : Bool) = true := by
      rw [Bool.or_eq_true, decide_eq_true_eq, decide_eq_true_eq]
      omega
    rw [if_pos hnone, hstay, nextChunk, if_pos hcond]
  · have hcond : ¬(r.data.length ≤ r.position || most = 0 : Bool) = true := by
      rw [Bool.or_eq_true, decide_eq_true_eq, decide_eq_true_eq]
      omega
    have hstop : min (r.position + most) r.data.length = r.position + min most r.remaining := by omega
    have htake : (r.data.drop r.position).take (min most r.remaining) = r.next most := by
      rw [next, remaining, ← List.length_drop, ← List.take_eq_take_min]
    rw [if_neg hnone, nextChunk, if_neg hcond]
    simp only [hstop, Nat.add_sub_cancel_left, htake]
    rfl

/-- On 64 bits a chunk is the same as long as the place to stop does not wrap around. -/
theorem Within.nextChunk?_eq {r : Reader} (h : r.Within) (hlength : r.data.length < UInt64.size) (most : UInt64) :
    r.nextChunk? most =
      if r.remaining = 0 ∨ r.position + most.toNat < UInt64.size then some (r.nextChunk most.toNat) else none := by
  have hle : r.position ≤ r.data.length := h
  have hzero : most = 0 ↔ most.toNat = 0 := UInt64.toNat_inj.symm
  by_cases hnone : r.data.length ≤ r.position ∨ most = 0
  · have hfits : r.remaining = 0 ∨ r.position + most.toNat < UInt64.size := by
      rcases hnone with hend | hmost
      · exact .inl (Nat.sub_eq_zero_of_le hend)
      · rw [hzero.mp hmost]
        exact .inr (by omega)
    rw [if_pos hfits, nextChunk?, nextChunk, if_pos (by simpa using hnone), if_pos (by simpa [← hzero] using hnone)]
  · have hposition : r.position < UInt64.size := Nat.lt_of_le_of_lt hle hlength
    have hplace : (r.position.toUInt64 + most).toNat = (r.position + most.toNat) % UInt64.size := by
      rw [UInt64.toNat_add, Nat.toUInt64_eq, UInt64.toNat_ofNat_of_lt' hposition]
    have hmost : most.toNat < UInt64.size := most.toNat_lt_size
    have hleft : ¬r.remaining = 0 := fun hend => hnone (.inl (Nat.sub_eq_zero_iff_le.mp hend))
    have hword : ¬(r.data.length ≤ r.position || most = 0 : Bool) = true := by simpa using hnone
    have hnat : ¬(r.data.length ≤ r.position || most.toNat = 0 : Bool) = true := by simpa [← hzero] using hnone
    simp only [nextChunk?, nextChunk, if_neg hword, if_neg hnat, hplace, or_iff_right hleft]
    by_cases hfits : r.position + most.toNat < UInt64.size
    · rw [Nat.mod_eq_of_lt hfits, if_neg (by omega), if_pos hfits]
    · have hwrapped : (r.position + most.toNat) % UInt64.size < r.position := by
        rw [Nat.mod_eq_sub_mod (Nat.not_lt.mp hfits), Nat.mod_eq_of_lt (by omega)]
        omega
      rw [if_pos (by omega), if_neg hfits]

theorem Within.read_eq {r : Reader} (h : r.Within) (buffer : Bytes) :
    r.read buffer = (min buffer.length r.remaining, r.next buffer.length ++ buffer.drop (min buffer.length r.remaining),
      r.advanced buffer.length) := by
  rw [read, h.nextChunk_eq]
  by_cases hnone : buffer.length = 0 ∨ r.remaining = 0
  · have hzero : min buffer.length r.remaining = 0 := by omega
    have hnext : r.next buffer.length = [] := List.length_eq_zero_iff.mp ((r.length_next _).trans hzero)
    rw [if_pos hnone, hzero, hnext]
    rfl
  · rw [if_neg hnone]
    simp only [length_next]

theorem remaining_advanced (r : Reader) (most : Nat) : (r.advanced most).remaining = r.remaining - min most r.remaining := by
  show r.data.length - (r.position + min most r.remaining) = r.data.length - r.position - min most r.remaining
  omega

/-- What is taken in two portions is what is taken at once. -/
theorem next_append (r : Reader) (m n : Nat) : r.next m ++ (r.advanced m).next n = r.next (m + n) := by
  have hdrop : r.data.drop (r.position + min m r.remaining) = (r.data.drop r.position).drop m := by
    rw [← List.drop_drop, remaining, ← List.length_drop, ← List.drop_eq_drop_min]
  calc r.next m ++ (r.advanced m).next n
      = (r.data.drop r.position).take m ++ ((r.data.drop r.position).drop m).take n := by rw [← hdrop]; rfl
    _ = r.next (m + n) := List.take_add.symm

theorem advanced_advanced (r : Reader) (m n : Nat) : (r.advanced m).advanced n = r.advanced (m + n) := by
  have hposition : (r.advanced m).position + min n (r.advanced m).remaining = r.position + min (m + n) r.remaining := by
    rw [remaining_advanced]
    show r.position + min m r.remaining + min n (r.remaining - min m r.remaining) = _
    omega
  rw [advanced, hposition]
  rfl

theorem Within.readToEnd_eq {r : Reader} (h : r.Within) {most : Nat} (hall : r.remaining ≤ most) :
    r.readToEnd = (r.next most, r.advanced most) := by
  have hle := h.position_add_remaining
  have htake : r.next most = r.data.drop r.position :=
    List.take_of_length_le (by rw [List.length_drop]; exact hall)
  have hposition : r.position + min most r.remaining = max r.position r.data.length := by omega
  rw [readToEnd, htake, Reader.advanced, hposition]

/-- A call on a reader: for a chunk of at most so many bytes, or to fill the front of a buffer. -/
inductive Call
  | chunk (most : Nat)
  | read (buffer : Bytes)

/-- How many bytes a call asks for. -/
def Call.size : Call → Nat
  | chunk most => most
  | read buffer => buffer.length

/-- The bytes that a call hands out: the chunk, or what the buffer holds in front as far as the call says. -/
def handsOut (r : Reader) : Call → Bytes
  | .chunk most => (r.nextChunk most).1.getD []
  | .read buffer => (r.read buffer).2.1.take (r.read buffer).1

/-- The reader after a call. -/
def act (r : Reader) : Call → Reader
  | .chunk most => (r.nextChunk most).2
  | .read buffer => (r.read buffer).2.2

def after (r : Reader) (calls : List Call) : Reader := calls.foldl act r

/-- All that calls hand out, one after the other. -/
def delivered (r : Reader) : List Call → Bytes
  | [] => []
  | c :: rest => r.handsOut c ++ (r.act c).delivered rest

theorem Within.act_eq {r : Reader} (h : r.Within) (c : Call) : r.act c = r.advanced c.size := by
  cases c with
  | chunk most => exact congrArg Prod.snd (h.nextChunk_eq most)
  | read buffer => exact congrArg (fun answer => answer.2.2) (h.read_eq buffer)

theorem Within.handsOut_eq {r : Reader} (h : r.Within) (c : Call) : r.handsOut c = r.next c.size := by
  cases c with
  | chunk most =>
    rw [handsOut, h.nextChunk_eq]
    show (if most = 0 ∨ r.remaining = 0 then none else some (r.next most)).getD [] = r.next most
    split
    · have hnext : (r.next most).length = 0 := by
        rw [length_next]
        omega
      exact (List.length_eq_zero_iff.mp hnext).symm
    · rfl
  | read buffer =>
    rw [handsOut, h.read_eq]
    exact List.take_left' (r.length_next buffer.length)

/-- How many bytes calls ask for in all. -/
def asked (calls : List Call) : Nat := calls.foldr (fun c n => c.size + n) 0

/-- Calls hand out what one call for all that they ask for would, and leave the reader where it would. -/
theorem Within.delivered_eq (calls : List Call) : ∀ {r : Reader}, r.Within →
    r.delivered calls = r.next (asked calls) ∧ r.after calls = r.advanced (asked calls) := by
  induction calls with
  | nil => exact fun _ => ⟨rfl, rfl⟩
  | cons c rest ih =>
    intro r h
    obtain ⟨hdelivered, hafter⟩ := ih (h.advanced c.size)
    have hasked : asked (c :: rest) = c.size + asked rest := rfl
    constructor
    · rw [delivered, h.handsOut_eq, h.act_eq, hdelivered, next_append, hasked]
    · rw [after, List.foldl_cons, h.act_eq, hasked, ← advanced_advanced]
      exact hafter

theorem length_le_asked {calls : List Call} (h : ∀ c ∈ calls, 1 ≤ c.size) : calls.length ≤ asked calls := by
  induction calls with
  | nil => exact Nat.le_refl 0
  | cons c rest ih =>
    have hc := h c List.mem_cons_self
    have hrest := ih fun c' hc' => h c' (List.mem_cons_of_mem _ hc')
    have hasked : asked (c :: rest) = c.size + asked rest := rfl
    rw [hasked, List.length_cons]
    omega

/-- A reader, and what was handed out by it and, until it was copied, by the reader that it is a copy of. -/
structure Held where
  reader : Reader
  got : Bytes := []

/-- What may happen among readers, which are named by their places: one of them is called, or a copy of one comes behind. -/
inductive Step
  | calls (name : Nat) (c : Call)
  | copies (name : Nat)

def step (readers : List Held) : Step → List Held
  | .calls name c => readers.modify name fun h => ⟨h.reader.act c, h.got ++ h.reader.handsOut c⟩
  | .copies name => readers ++ readers[name]?.toList

def run (readers : List Held) (steps : List Step) : List Held := steps.foldl step readers

/-- The calls on the reader with that name. -/
def callsOn (name : Nat) (steps : List Step) : List Call :=
  steps.filterMap fun
    | .calls name' c => if name' = name then some c else none
    | .copies _ => none

/-- The reader is one of this content, and what was handed out is the beginning of the content up to where it stands. -/
structure Faithful (data : Bytes) (h : Held) : Prop where
  data_eq : h.reader.data = data
  within : h.reader.Within
  got_eq : h.got = data.take h.reader.position

theorem Faithful.act {data : Bytes} {h : Held} (hf : Faithful data h) (c : Call) :
    Faithful data ⟨h.reader.act c, h.got ++ h.reader.handsOut c⟩ := by
  have hact := hf.within.act_eq c
  refine ⟨?_, ?_, ?_⟩
  · show (h.reader.act c).data = data
    rw [hact]
    exact hf.data_eq
  · show (h.reader.act c).Within
    rw [hact]
    exact hf.within.advanced c.size
  · show h.got ++ h.reader.handsOut c = data.take (h.reader.act c).position
    rw [hact, hf.within.handsOut_eq, hf.got_eq]
    show data.take h.reader.position ++ (h.reader.data.drop h.reader.position).take c.size =
      data.take (h.reader.position + min c.size h.reader.remaining)
    rw [List.take_add, hf.data_eq, remaining, hf.data_eq, ← List.length_drop, ← List.take_eq_take_min]

theorem Faithful.step {data : Bytes} {readers : List Held} (hf : ∀ h ∈ readers, Faithful data h) (x : Step) :
    ∀ h ∈ step readers x, Faithful data h := by
  intro h hmem
  cases x with
  | calls name c =>
    obtain ⟨i, hi⟩ := List.mem_iff_getElem?.mp hmem
    rw [Reader.step, List.getElem?_modify] at hi
    obtain ⟨old, hold, rfl⟩ := Option.map_eq_some_iff.mp hi
    have hfaithful := hf old (List.mem_of_getElem? hold)
    split
    · exact hfaithful.act c
    · exact hfaithful
  | copies name =>
    rcases List.mem_append.mp hmem with hmem | hmem
    · exact hf h hmem
    · exact hf h (List.mem_of_getElem? (Option.mem_toList.mp hmem))

theorem Faithful.run {data : Bytes} (steps : List Step) : ∀ {readers : List Held}, (∀ h ∈ readers, Faithful data h) →
    ∀ h ∈ run readers steps, Faithful data h := by
  induction steps with
  | nil => exact fun hf => hf
  | cons x rest ih => exact fun hf => ih (Faithful.step hf x)

/-- A reader goes on by the calls on it alone, whatever happens to others meanwhile. -/
theorem getElem?_run (name : Nat) (steps : List Step) : ∀ {readers : List Held} {h : Held}, readers[name]? = some h →
    (run readers steps)[name]? =
      some ⟨h.reader.after (callsOn name steps), h.got ++ h.reader.delivered (callsOn name steps)⟩ := by
  induction steps with
  | nil =>
    intro readers h hget
    show readers[name]? = some ⟨h.reader, h.got ++ []⟩
    rw [hget, List.append_nil]
  | cons x rest ih =>
    intro readers h hget
    cases x with
    | copies name' =>
      have hnext : (Reader.step readers (.copies name'))[name]? = some h := by
        rw [Reader.step, List.getElem?_append_left (List.getElem?_eq_some_iff.mp hget).1, hget]
      exact ih hnext
    | calls name' c =>
      have hnext : (Reader.step readers (.calls name' c))[name]? =
          some (if name' = name then ⟨h.reader.act c, h.got ++ h.reader.handsOut c⟩ else h) := by
        rw [Reader.step, List.getElem?_modify, hget]
        rfl
      by_cases hname : name' = name
      · have hcalls : callsOn name (.calls name' c :: rest) = c :: callsOn name rest := by simp [callsOn, hname]
        rw [if_pos hname] at hnext
        rw [hcalls, delivered, ← List.append_assoc]
        exact ih hnext
      · have hcalls : callsOn name (.calls name' c :: rest) = callsOn name rest := by simp [callsOn, hname]
        rw [if_neg hname] at hnext
        rw [hcalls]
        exact ih hnext

/-- What a reader of this content has given and how it answers whatever call comes next. -/
structure Serves (data : Bytes) (h : Held) : Prop where
  within : h.reader.position ≤ data.length
  left : h.reader.position + h.reader.remaining = data.length
  got_eq : h.got = data.take h.reader.position
  chunk : ∀ most, (h.reader.nextChunk most).1 =
    if most = 0 ∨ h.reader.remaining = 0 then none else some ((data.drop h.reader.position).take most)
  chunkOnWords : data.length < UInt64.size → ∀ most : UInt64, h.reader.nextChunk? most =
    if h.reader.remaining = 0 ∨ h.reader.position + most.toNat < UInt64.size then some (h.reader.nextChunk most.toNat) else none
  chunkLength : ∀ most bytes, (h.reader.nextChunk most).1 = some bytes → bytes.length = min most h.reader.remaining
  readCount : ∀ buffer, (h.reader.read buffer).1 = min buffer.length h.reader.remaining
  readFront : ∀ buffer, (h.reader.read buffer).2.1.take (h.reader.read buffer).1 =
    (data.drop h.reader.position).take buffer.length
  readRest : ∀ buffer, (h.reader.read buffer).2.1.length = buffer.length ∧
    (h.reader.read buffer).2.1.drop (h.reader.read buffer).1 = buffer.drop (h.reader.read buffer).1
  moves : ∀ c : Call, h.reader.act c = ⟨data, h.reader.position + min c.size h.reader.remaining⟩
  toEnd : h.reader.readToEnd = (data.drop h.reader.position, ⟨data, data.length⟩)

theorem Faithful.serves {data : Bytes} {h : Held} (hf : Faithful data h) : Serves data h := by
  obtain ⟨reader, got⟩ := h
  obtain ⟨rfl, hwithin, hgot⟩ := hf
  have hlength (buffer : Bytes) : (reader.next buffer.length).length = min buffer.length reader.remaining :=
    reader.length_next _
  refine ⟨hwithin, hwithin.position_add_remaining, hgot, fun most => ?_, hwithin.nextChunk?_eq, fun most bytes hbytes => ?_,
    fun buffer => ?_, fun buffer => ?_, fun buffer => ⟨?_, ?_⟩, hwithin.act_eq, ?_⟩
  · exact congrArg Prod.fst (hwithin.nextChunk_eq most)
  · rw [hwithin.nextChunk_eq] at hbytes
    obtain ⟨-, hbytes⟩ := Option.ite_none_left_eq_some.mp hbytes
    rw [← Option.some.inj hbytes]
    exact reader.length_next most
  · exact congrArg Prod.fst (hwithin.read_eq buffer)
  · exact hwithin.handsOut_eq (.read buffer)
  · have hle : min buffer.length reader.remaining ≤ buffer.length := Nat.min_le_left _ _
    rw [hwithin.read_eq, List.length_append, hlength, List.length_drop]
    exact Nat.add_sub_of_le hle
  · rw [hwithin.read_eq]
    exact List.drop_left' (hlength buffer)
  · show (_, (⟨_, max _ _⟩ : Reader)) = _
    rw [Nat.max_eq_right hwithin]

/-- Calls that ask for something each, as many as there are bytes left, hand out all of them, and then there is nothing. -/
theorem Faithful.exhausted {data : Bytes} {h : Held} (hf : Faithful data h) {calls : List Call}
    (hsize : ∀ c ∈ calls, 1 ≤ c.size) (hmany : h.reader.remaining ≤ calls.length) :
    h.got ++ h.reader.delivered calls = data ∧ h.reader.readToEnd = (h.reader.delivered calls, h.reader.after calls) ∧
      (h.reader.after calls).remaining = 0 := by
  have hall : h.reader.remaining ≤ asked calls := Nat.le_trans hmany (length_le_asked hsize)
  obtain ⟨hdelivered, hafter⟩ := hf.within.delivered_eq calls
  have hnext : h.reader.next (asked calls) = h.reader.data.drop h.reader.position :=
    List.take_of_length_le (by rw [List.length_drop]; exact hall)
  refine ⟨?_, ?_, ?_⟩
  · rw [hdelivered, hf.got_eq, hnext, hf.data_eq, List.take_append_drop]
  · rw [hdelivered, hafter, hf.within.readToEnd_eq hall]
  · rw [hafter, remaining_advanced]
    omega

/-- Readers deliver the content once and in order. Of whatever stream is sealed, a reader starts at the beginning, and however
it and copies of it are called: each call hands out as many of the bytes that come next as it asks for and are left, and
nothing only if it asks for none or none are left; a call for a chunk answers the same on 64 bits unless the place to stop
wraps around, and then it fails; no reader stands behind the end; what a reader has given, with what was
given before it was copied, is the content up to where it stands; a buffer is filled in front only. Calls on one reader do
not touch others, and a copy starts with what the reader that it is a copy of has given and goes on alone. As many calls as
there are bytes left, each of which asks for something, give all of them, as one call for all does, and then there is
nothing. -/
theorem readers_deliver_once (contentType : String) (limit : Option Nat) (data : Bytes) (steps : List Step) :
    let readers : List Held := run [⟨⟨data, 0⟩, []⟩] steps
    Reader.ofStream ⟨contentType, limit, .sealed data⟩ = .ok ⟨data, 0⟩ ∧
    (∀ h ∈ readers, Serves data h) ∧
    (∀ (name : Nat) h, readers[name]? = some h → ∀ later, (run readers later)[name]? =
      some ⟨h.reader.after (callsOn name later), h.got ++ h.reader.delivered (callsOn name later)⟩) ∧
    (∀ (name : Nat) h, readers[name]? = some h → run readers [.copies name] = readers ++ [h]) ∧
    (∀ h ∈ readers, ∀ calls, (∀ c ∈ calls, 1 ≤ c.size) → h.reader.remaining ≤ calls.length →
      h.got ++ h.reader.delivered calls = data ∧
      h.reader.readToEnd = (h.reader.delivered calls, h.reader.after calls) ∧
      (∀ most, ((h.reader.after calls).nextChunk most).1 = none) ∧
      ∀ buffer, (h.reader.after calls).read buffer = (0, buffer, h.reader.after calls)) := by
  intro readers
  have hfaithful : ∀ h ∈ readers, Faithful data h := by
    refine Faithful.run steps fun h hmem => ?_
    obtain rfl := List.mem_singleton.mp hmem
    exact ⟨rfl, Nat.zero_le _, rfl⟩
  refine ⟨rfl, fun h hmem => (hfaithful h hmem).serves, fun name h hget later => getElem?_run name later hget,
    fun name h hget => ?_, fun h hmem calls hsize hmany => ?_⟩
  · show readers ++ readers[name]?.toList = readers ++ [h]
    rw [hget]
    rfl
  · obtain ⟨hdata, hend, hnone⟩ := (hfaithful h hmem).exhausted hsize hmany
    have hdone : (h.reader.after calls).data.length ≤ (h.reader.after calls).position := Nat.sub_eq_zero_iff_le.mp hnone
    have hchunk (most : Nat) : (h.reader.after calls).nextChunk most = (none, h.reader.after calls) := by
      rw [nextChunk, if_pos (by simp [hdone])]
    refine ⟨hdata, hend, fun most => ?_, fun buffer => ?_⟩
    · rw [hchunk]
    · rw [read, hchunk]

end ResponseCache.Reader
