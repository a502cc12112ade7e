import ResponseCache.Proofs.Document
import ResponseCache.Proofs.Replaying

namespace ResponseCache

/-- What was written as bytes is read as the same text. -/
theorem Text.ofBytes?_toBytes (s : String) : ofBytes? (toBytes s) = some s := by
  have hbytes : (⟨(toBytes s).toArray⟩ : ByteArray) = s.toByteArray := by
    have hlist : toBytes s = s.toByteArray.data.toList := by
      rw [toBytes, String.toUTF8_eq_toByteArray, ByteArray.toList, toList_loop, List.reverse_nil, List.nil_append,
        List.drop_zero]
    rw [hlist, Array.toArray_toList]
  rw [ofBytes?, hbytes, String.fromUTF8?, dif_pos s.isValidUTF8]
  rfl

theorem Json.ofNat_injective {m n : Nat} (h : ofNat m = ofNat n) : m = n := by
  have hvalue (k : Nat) : Nat.ofDigitChars 10 (Nat.toDigits 10 k) 0 = k := Nat.ofDigitChars_toDigits (by decide) (by decide)
  rw [ofNat, ofNat, Json.number.injEq] at h
  rw [← hvalue m, h, hvalue]

namespace Replayer

/-- What a response tells is told of its fetch. The entry that the body was read from is named where the body came from the
cache, and it is the one that was served. -/
structure TellsFetch (r : Replayer) (n : Nat) (key : String) (prefer : Option String) (report : Report) (response : Response) :
    Prop where
  served : (r.site.fetch (.ofUri key) (prefer.elim .none .prefer)).1 = .ok response
  report_eq : report = tellFetch n response key
  fromCache : report.told "from_cache" = some (.bool response.fromCache)
  identity : report.told "identity" = some (.ofNat response.identity.raw.toNat)
  network : report.told "cache_entry_id" = some (.ofNat 0) ↔ report.told "from_cache" = some (.bool false)
  cache : report.told "from_cache" = some (.bool true) → report.told "cache_entry_id" = report.told "identity"
  bodyLength : report.told "body_len" = some (.ofNat response.body.length)

theorem Sound.tellsFetch {r : Replayer} (h : r.Sound) {n : Nat} {key : String} {prefer : Option String}
    {expect : Option Expectation} {report : Report} (hreport : (r.runStep n (.fetch key prefer expect)).1 = .ok report) :
    ∃ response, r.TellsFetch n key prefer report response := by
  have hfetching := r.fetching n key prefer expect
  change (r.fetch n key prefer expect).1 = .ok report at hreport
  generalize r.fetch n key prefer expect = result at hfetching hreport
  cases hfetching with
  | refused e site hfetch => exact absurd hreport (by simp)
  | unmet response site what hfetch hunmet => exact absurd hreport (by simp)
  | met response site hfetch hmet =>
    obtain rfl := Except.ok.inj hreport
    -- A number of an entry is never zero, as what is served has an identity.
    have hpresent : response.identity.raw.toNat ≠ 0 := by
      intro hzero
      refine (h.seen hfetch).present ?_
      exact congrArg Identity.mk (UInt64.toNat_inj.mp hzero)
    have hentry : (tellFetch n response key).told "cache_entry_id" =
        some (.ofNat (if response.fromCache = true then response.identity.raw.toNat else 0)) := by
      show some (Json.ofNat response.cacheEntryId.raw.toNat) = _
      rw [Response.cacheEntryId]
      cases response.fromCache <;> rfl
    have hcache : (tellFetch n response key).told "from_cache" = some (.bool response.fromCache) := rfl
    refine ⟨response, congrArg Prod.fst hfetch, rfl, hcache, rfl, ?_, ?_, rfl⟩
    · rw [hentry, hcache]
      cases response.fromCache with
      | false => simp
      | true =>
        rw [if_pos rfl]
        constructor
        · exact fun hnumber => absurd (Json.ofNat_injective (Option.some.inj hnumber)) hpresent
        · exact fun hfalse => absurd hfalse (by simp)
    · intro htrue
      rw [hcache, Option.some.injEq, Json.bool.injEq] at htrue
      rw [hentry, if_pos htrue]
      rfl

/-- A replay writes one JSON object for each step that it completes, each in a line of its own, whatever characters the
scenario has and however the replay ends. The lines are those of the reports, in order, and nothing comes behind the last
newline. A line is read back as an object whose fields are just those that its report tells, each of them once. The line of a
fetch tells what was served: the entry that the body was read from is zero just when the body came from the network and else
the identity, and the length is that of the body. -/
theorem replay_writes_json_lines (now : Nat) (config : Config) (persistent : Bool) (acts : List Act) (s : Scenario) :
    let r := (start now config persistent).after acts
    let t := (r.run s).1
    t.output.splitOn 0x0a = t.reports.map (fun report => Text.toBytes report.line) ++ [[]] ∧
    t.Tells 1 s.steps (r.script s.origin) ∧
    (∀ report ∈ t.reports, 0x0a ∉ Text.toBytes report.line ∧ ∃ fields : List (String × Json),
      (Text.ofBytes? (Text.toBytes report.line)).bind Json.parse? = some (.ofFields fields) ∧
      (fields.map (·.1)).Nodup ∧ ∀ name value, (name, value) ∈ fields ↔ report.told name = some value) ∧
    (∀ i report key prefer expect, t.reports[i]? = some report → s.steps[i]? = some (.fetch key prefer expect) →
      ∃ response, (runSteps 1 (s.steps.take i) (r.script s.origin)).2.TellsFetch (1 + i) key prefer report response) := by
  intro r t
  have hsound : r.Sound := (sound_start now config persistent).after acts
  have hscript : (r.script s.origin).Sound := hsound.goes (goes_script s.origin hsound.retired)
  have htells : t.Tells 1 s.steps (r.script s.origin) := runSteps_tells s.steps (r.script s.origin) 1
  refine ⟨t.splitOn_output, htells, ?_, ?_⟩
  · intro report _
    refine ⟨report.newline_not_mem_line, report.fields, ?_, report.nodup_fields, report.mem_fields_iff⟩
    rw [Text.ofBytes?_toBytes, Option.bind_some, report.parse?_line]
  · intro i report key prefer expect hreport hstep
    obtain ⟨step, hget, -, -, hanswer⟩ := htells.reported i report hreport
    obtain rfl : step = .fetch key prefer expect := Option.some.inj (hget.symm.trans hstep)
    have hbefore : (runSteps 1 (s.steps.take i) (r.script s.origin)).2.Sound :=
      runSteps_keeps _ (fun step _ _ n hr => hr.runStep n step) _ 1 hscript
    exact hbefore.tellsFetch hanswer

end Replayer
end ResponseCache
