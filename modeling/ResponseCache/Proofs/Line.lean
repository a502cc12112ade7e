import Mathlib.Data.List.Nodup
import ResponseCache.Proofs.Document
import ResponseCache.Proofs.Encoding
import ResponseCache.Replay
/-!
Lines. A JSON document that is printed compactly has no newline in it, as long as its numbers have none, and text without
a newline is written without the byte of one. So each report takes up one line of what a replay writes.
-/
namespace ResponseCache

namespace Text

theorem newline_ne_ofNat {n : Nat} (hlow : 128 ≤ n) (hhigh : n < 256) : (0x0a : UInt8) ≠ UInt8.ofNat n := by
  intro h
  have hnat : 10 = n % 256 := congrArg UInt8.toNat h
  omega

/-- Only a newline is encoded with the byte of one: all bytes of a longer encoding have their high bit set. -/
theorem newline_mem_utf8EncodeChar {c : Char} (h : 0x0a ∈ String.utf8EncodeChar c) : c = '\n' := by
  unfold String.utf8EncodeChar at h
  simp only at h
  split at h
  · rename_i hone
    have hnat : 10 = c.val.toNat % 256 := congrArg UInt8.toNat (List.mem_singleton.mp h)
    have hten : c.val.toNat = ('\n' : Char).val.toNat := by
      rw [show ('\n' : Char).val.toNat = 10 from rfl]
      omega
    exact Char.ext (UInt32.toNat_inj.mp hten)
  · split at h
    · simp only [List.mem_cons, List.not_mem_nil, or_false] at h
      rcases h with h | h <;> exact absurd h (newline_ne_ofNat (by omega) (by omega))
    · split at h
      · simp only [List.mem_cons, List.not_mem_nil, or_false] at h
        rcases h with h | h | h <;> exact absurd h (newline_ne_ofNat (by omega) (by omega))
      · simp only [List.mem_cons, List.not_mem_nil, or_false] at h
        rcases h with h | h | h | h <;> exact absurd h (newline_ne_ofNat (by omega) (by omega))

theorem newline_not_mem_toBytes {cs : List Char} (h : '\n' ∉ cs) : 0x0a ∉ toBytes (String.ofList cs) := by
  rw [toBytes_ofList, List.mem_flatMap]
  rintro ⟨c, hc, hbyte⟩
  exact h (newline_mem_utf8EncodeChar hbyte ▸ hc)

end Text

namespace Json

theorem newline_ne_hexDigit {n : Nat} (h : n < 16) : '\n' ≠ hexDigit n := by
  have hall : ∀ m < 16, '\n' ≠ hexDigit m := by decide
  exact hall n h

theorem newline_not_mem_escape (c : Char) : '\n' ∉ escape c := by
  by_cases hc : c = '\n'
  · rw [hc]
    decide
  · have hc' : '\n' ≠ c := Ne.symm hc
    unfold escape
    repeat' split
    all_goals try decide
    · rename_i hcontrol
      have hhigh := newline_ne_hexDigit (n := c.toNat / 16) (by omega)
      have hlow := newline_ne_hexDigit (n := c.toNat % 16) (by omega)
      simp [hhigh, hlow]
    · simp [hc']

theorem newline_not_mem_literal (text : Option String) : '\n' ∉ literal text := by
  simp only [literal, quoted, List.mem_append, List.mem_cons, List.mem_flatMap, List.not_mem_nil, or_false]
  rintro ((h | ⟨c, -, h⟩) | h)
  · exact absurd h (by decide)
  · exact newline_not_mem_escape c h
  · exact absurd h (by decide)

theorem newline_not_mem_printMembers {members : List (Option String × Json)} (h : ∀ m ∈ members, '\n' ∉ m.2.print) :
    '\n' ∉ printMembers members := by
  induction members with
  | nil => decide
  | cons m rest ih =>
    obtain ⟨name, value⟩ := m
    have hname := newline_not_mem_literal name
    have hvalue := h (name, value) List.mem_cons_self
    have hrest := ih fun m' hm' => h m' (List.mem_cons_of_mem _ hm')
    simp [printMembers, hname, hvalue, hrest]

theorem newline_not_mem_print_object {members : List (Option String × Json)} (h : ∀ m ∈ members, '\n' ∉ m.2.print) :
    '\n' ∉ (object members).print := by
  cases members with
  | nil => decide
  | cons m rest =>
    obtain ⟨name, value⟩ := m
    have hname := newline_not_mem_literal name
    have hvalue := h (name, value) List.mem_cons_self
    have hrest := newline_not_mem_printMembers fun m' hm' => h m' (List.mem_cons_of_mem _ hm')
    simp [print, hname, hvalue, hrest]

theorem newline_not_mem_ofFields {fields : List (String × Json)} (h : ∀ f ∈ fields, '\n' ∉ f.2.print) :
    '\n' ∉ (ofFields fields).print := by
  refine newline_not_mem_print_object ?_
  intro m hm
  obtain ⟨f, hf, rfl⟩ := List.mem_map.mp hm
  exact h f hf

/-- A field that may be left out. -/
theorem newline_not_mem_field {α : Type} {name : String} {f : α → Json} (h : ∀ a, '\n' ∉ (f a).print)
    (value : Option α) : ∀ m ∈ (value.map fun a => (name, f a)).toList, '\n' ∉ m.2.print := by
  cases value with
  | none => exact fun _ hm => absurd hm List.not_mem_nil
  | some a => exact fun _ hm => List.mem_singleton.mp hm ▸ h a

theorem newline_not_mem_ofNat (n : Nat) : '\n' ∉ (ofNat n).print := by
  intro h
  have hdigit := Nat.isDigit_of_mem_toDigits (by decide) (by decide) h
  exact absurd hdigit (by decide)

theorem newline_not_mem_ofString (s : String) : '\n' ∉ (ofString s).print := newline_not_mem_literal (some s)

theorem newline_not_mem_bool (b : Bool) : '\n' ∉ (bool b).print := by cases b <;> decide

end Json

namespace Report

/-- A report is an object, and its step is the first thing in it. -/
theorem exists_print_eq (r : Report) : ∃ rest,
    r.toJson.print = ['\x7b', '"', 's', 't', 'e', 'p', '"', ':'] ++ Nat.toDigits 10 r.step ++ ',' :: rest := by
  have hname : Json.literal (some "step") = ['"', 's', 't', 'e', 'p', '"'] := by decide
  obtain ⟨members, hmembers⟩ : ∃ members, r.toJson =
      .object ((some "step", .ofNat r.step) :: (some "action", .ofString r.action) :: members) := ⟨_, rfl⟩
  refine ⟨Json.literal (some "action") ++ ':' :: Json.literal (some r.action) ++ Json.printMembers members, ?_⟩
  rw [hmembers]
  simp only [Json.print, Json.printMembers, Json.ofNat, Json.ofString, hname, List.cons_append, List.nil_append,
    List.append_assoc]

theorem newline_not_mem_print (r : Report) : '\n' ∉ r.toJson.print := by
  have hidentity (i : Identity) : '\n' ∉ (Identity.toJson i).print := Json.newline_not_mem_ofNat _
  refine Json.newline_not_mem_ofFields ?_
  simp only [List.forall_mem_append]
  refine ⟨⟨⟨⟨⟨⟨⟨⟨?_, ?_⟩, ?_⟩, ?_⟩, ?_⟩, ?_⟩, ?_⟩, ?_⟩, ?_⟩
  · intro m hm
    rcases List.mem_cons.mp hm with rfl | hm
    · exact Json.newline_not_mem_ofNat _
    · exact List.mem_singleton.mp hm ▸ Json.newline_not_mem_ofString _
  · exact Json.newline_not_mem_field Json.newline_not_mem_ofString r.key
  · exact Json.newline_not_mem_field hidentity r.identity
  · exact Json.newline_not_mem_field hidentity r.cacheEntryId
  · exact Json.newline_not_mem_field (fun _ => Json.newline_not_mem_ofString _) r.decision
  · exact Json.newline_not_mem_field Json.newline_not_mem_bool r.fromCache
  · exact Json.newline_not_mem_field Json.newline_not_mem_ofString r.alternativeType
  · exact Json.newline_not_mem_field Json.newline_not_mem_ofNat r.bodyLength
  · exact Json.newline_not_mem_field Json.newline_not_mem_ofNat r.persistedRecords

theorem newline_not_mem_line (r : Report) : 0x0a ∉ Text.toBytes r.line :=
  Text.newline_not_mem_toBytes r.newline_not_mem_print

/-- The names that fields of reports have, in the order in which they are written. -/
def names : List String :=
  ["step", "action", "key", "identity", "cache_entry_id", "decision", "from_cache", "alternative_type", "body_len",
    "persisted_records"]

/-- What a report tells under a name. -/
def told (r : Report) : String → Option Json
  | "step" => some (.ofNat r.step)
  | "action" => some (.ofString r.action)
  | "key" => r.key.map .ofString
  | "identity" => r.identity.map fun i => .ofNat i.raw.toNat
  | "cache_entry_id" => r.cacheEntryId.map fun i => .ofNat i.raw.toNat
  | "decision" => r.decision.map fun kind => .ofString kind.name
  | "from_cache" => r.fromCache.map .bool
  | "alternative_type" => r.alternativeType.map .ofString
  | "body_len" => r.bodyLength.map .ofNat
  | "persisted_records" => r.persistedRecords.map .ofNat
  | _ => none

/-- The fields of a report that are set. -/
def fields (r : Report) : List (String × Json) := names.filterMap fun name => (r.told name).map fun value => (name, value)

theorem toJson_eq (r : Report) : r.toJson = .ofFields r.fields := by
  rw [fields, List.filterMap_eq_flatMap_toList]
  simp [toJson, names, told, Identity.toJson, Function.comp_def]

theorem mem_fields_iff (r : Report) (name : String) (value : Json) :
    (name, value) ∈ r.fields ↔ r.told name = some value := by
  simp only [fields, List.mem_filterMap, Option.map_eq_some_iff, Prod.mk.injEq]
  constructor
  · rintro ⟨name, -, value, htold, rfl, rfl⟩
    exact htold
  · intro htold
    -- Nothing is told under other names.
    have hname : name ∈ names := by
      unfold told at htold
      split at htold
      all_goals first | decide | exact nomatch htold
    exact ⟨name, hname, value, htold, rfl, rfl⟩

theorem nodup_fields (r : Report) : (r.fields.map (·.1)).Nodup := by
  have hfilter : r.fields.map (·.1) = names.filter fun name => (r.told name).isSome := by
    rw [fields, List.map_filterMap, ← List.filterMap_eq_filter]
    refine List.filterMap_congr fun name _ => ?_
    cases h : r.told name <;> simp [Option.guard, h]
  rw [hfilter]
  exact List.Nodup.filter _ (by decide)

theorem plain_of_told {r : Report} {name : String} {value : Json} (h : r.told name = some value) : Json.Plain value := by
  unfold told at h
  split at h
  all_goals first
    | obtain rfl := Option.some.inj h
      constructor
    | obtain ⟨a, -, rfl⟩ := Option.map_eq_some_iff.mp h
      constructor
    | exact nomatch h

/-- The line of a report is read back as the fields that are set. -/
theorem parse?_line (r : Report) : Json.parse? r.line = some (.ofFields r.fields) := by
  have hplain : Json.Plain (.ofFields r.fields) := by
    refine .ofFields fun f hf => ?_
    obtain ⟨name, value⟩ := f
    exact plain_of_told ((r.mem_fields_iff name value).mp hf)
  rw [line, toJson_eq]
  exact hplain.parse?_render

end Report

namespace Replayer

/-- Cut at its newlines, what a replay writes is the lines of its reports, and nothing behind the last of them. -/
theorem Transcript.splitOn_output (t : Transcript) :
    t.output.splitOn 0x0a = t.reports.map (fun report => Text.toBytes report.line) ++ [[]] := by
  obtain ⟨reports, failure⟩ := t
  unfold output
  induction reports with
  | nil => rfl
  | cons report rest ih =>
    have hline : ∀ b ∈ Text.toBytes report.line, (b == 0x0a) = false := by
      intro b hb
      exact beq_false_of_ne fun heq => report.newline_not_mem_line (heq ▸ hb)
    rw [List.flatMap_cons, List.append_assoc, List.singleton_append, List.map_cons, List.cons_append, ← ih]
    exact List.splitOnP_append_cons_of_forall_mem hline 0x0a rfl _

end Replayer
end ResponseCache
