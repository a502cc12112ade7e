import ResponseCache.Proofs.Checking
import ResponseCache.Proofs.Line

namespace ResponseCache

/-- The report of the same step under a number larger by `k`. -/
def Report.later (k : Nat) (report : Report) : Report := { report with step := report.step + k }

namespace Replayer

/-- What a step with that action comes to under every number. -/
inductive Course (action : String) (f : Nat → Except Error Report × Replayer) : Prop
  | reported (report : Nat → Report) (r : Replayer) (hstep : ∀ n, report n = { report 0 with step := n, action })
      (h : ∀ n, f n = (.ok (report n), r))
  | failed (c : Complaint) (r : Replayer) (h : ∀ n, f n = (.error (c.at n), r))

section
variable (r : Replayer)

theorem course_fetch (key : String) (prefer : Option String) (expect : Option Expectation) :
    Course "fetch" fun n => r.fetch n key prefer expect := by
  unfold fetch
  generalize r.site.fetch (.ofUri key) (prefer.elim .none .prefer) = result
  obtain ⟨answer, site⟩ := result
  cases answer with
  | error e => exact .failed (.service e) _ fun _ => rfl
  | ok response =>
    cases checked_expect { r with site } response expect with
    | passed _ hcheck => exact .reported _ _ (fun _ => rfl) fun n => by simp only [hcheck n]; rfl
    | failed _ what hcheck => exact .failed (.client what) { r with site } fun n => by simp only [hcheck n]

theorem course_writeAlternative (key label data : String) :
    Course "write_alternative" fun n => r.writeAlternative n key label data := by
  unfold writeAlternative
  cases r.last.get? key with
  | none =>
    refine .failed (.client ("write_alternative for " ++ key ++ " before any fetch")) r fun n => ?_
    simp only [Complaint.at, String.append_assoc]
    rfl
  | some response =>
    simp only
    split
    · exact .failed (.service _) _ fun _ => rfl
    · generalize Site.finish _ _ _ = result
      obtain ⟨answer, site⟩ := result
      cases answer with
      | error e => exact .failed (.service e) _ fun _ => rfl
      | ok entry => exact .reported _ _ (fun _ => rfl) fun _ => rfl

/-- A step that has the service do one thing, and reports its answer. -/
theorem course_map {α : Type} {action : String} (answer : Except Error α) (report : α → Nat → Report)
    (hstep : ∀ a n, report a n = { report a 0 with step := n, action }) (r' : Replayer) :
    Course action fun n => (answer.map fun a => report a n, r') := by
  cases answer with
  | error e => exact .failed (.service e) r' fun _ => rfl
  | ok a => exact .reported (report a) r' (hstep a) fun _ => rfl

theorem course_runStep (step : Step) : Course step.action fun n => r.runStep n step := by
  cases step with
  | fetch key prefer expect => exact r.course_fetch key prefer expect
  | writeAlternative key label data => exact r.course_writeAlternative key label data
  | flush => exact course_map _ _ (fun _ _ => rfl) _
  | evict key => exact course_map _ _ (fun _ _ => rfl) _
  | clearAlternative key => exact course_map _ _ (fun _ _ => rfl) _

end

theorem runSteps_of_error {r r' : Replayer} {n : Nat} {step : Step} {e : Error} (h : r.runStep n step = (.error e, r'))
    (rest : List Step) : runSteps n (step :: rest) r = (⟨[], some e⟩, r') := by
  simp only [runSteps, h]

theorem runSteps_of_ok {r r' : Replayer} {n : Nat} {step : Step} {report : Report}
    (h : r.runStep n step = (.ok report, r')) (rest : List Step) : runSteps n (step :: rest) r =
      (⟨report :: (runSteps (n + 1) rest r').1.reports, (runSteps (n + 1) rest r').1.failure⟩,
        (runSteps (n + 1) rest r').2) := by
  simp only [runSteps, h]

/-- Behind steps that all succeed the others go on, where these left the replayer. -/
theorem runSteps_append_of_ok (before after : List Step) : ∀ (r : Replayer) (n : Nat),
    (runSteps n before r).1.failure = none → runSteps n (before ++ after) r =
      (⟨(runSteps n before r).1.reports ++ (runSteps (n + before.length) after (runSteps n before r).2).1.reports,
        (runSteps (n + before.length) after (runSteps n before r).2).1.failure⟩,
        (runSteps (n + before.length) after (runSteps n before r).2).2) := by
  induction before with
  | nil => exact fun _ _ _ => rfl
  | cons step rest ih =>
    intro r n hok
    rcases hstep : r.runStep n step with ⟨answer, r'⟩
    cases answer with
    | error e =>
      rw [runSteps_of_error hstep] at hok
      exact absurd hok (by simp)
    | ok report =>
      have hlength : n + (step :: rest).length = n + 1 + rest.length := by rw [List.length_cons]; omega
      rw [runSteps_of_ok hstep] at hok
      rw [List.cons_append, runSteps_of_ok hstep, runSteps_of_ok hstep, ih r' (n + 1) hok, hlength]
      rfl

/-- Behind a step that fails nothing happens. -/
theorem runSteps_append_of_error (before after : List Step) : ∀ (r : Replayer) (n : Nat),
    (runSteps n before r).1.failure ≠ none → runSteps n (before ++ after) r = runSteps n before r := by
  induction before with
  | nil => exact fun _ _ hfailed => absurd rfl hfailed
  | cons step rest ih =>
    intro r n hfailed
    rcases hstep : r.runStep n step with ⟨answer, r'⟩
    cases answer with
    | error e => rw [List.cons_append, runSteps_of_error hstep, runSteps_of_error hstep]
    | ok report =>
      rw [runSteps_of_ok hstep] at hfailed
      rw [List.cons_append, runSteps_of_ok hstep, runSteps_of_ok hstep, ih r' (n + 1) hfailed]

/-- The second transcript tells of the same steps as the first one, which starts at number `n`, under numbers larger by
`k`. -/
structure Transcript.Later (k n : Nat) (t t' : Transcript) : Prop where
  reports : t'.reports = t.reports.map (Report.later k)
  failure : ∃ complaint : Option Complaint, t.failure = complaint.map (Complaint.at (n + t.reports.length)) ∧
    t'.failure = complaint.map (Complaint.at (n + t.reports.length + k))

/-- Numbers have no influence on what steps do. -/
theorem runSteps_later (k : Nat) (steps : List Step) : ∀ (r : Replayer) (n : Nat),
    (runSteps n steps r).1.Later k n (runSteps (n + k) steps r).1 ∧
      (runSteps (n + k) steps r).2 = (runSteps n steps r).2 := by
  induction steps with
  | nil => exact fun _ _ => ⟨⟨rfl, none, rfl, rfl⟩, rfl⟩
  | cons step rest ih =>
    intro r n
    -- Under both numbers the first step comes to the same, and the others start from the same replayer.
    cases r.course_runStep step with
    | failed c r' h =>
      rw [runSteps_of_error (h n), runSteps_of_error (h (n + k))]
      exact ⟨⟨rfl, some c, rfl, rfl⟩, rfl⟩
    | reported report r' hstep h =>
      obtain ⟨⟨hreports, complaint, hfailure, hfailure'⟩, hlast⟩ := ih r' (n + 1)
      have hnext : n + k + 1 = n + 1 + k := by omega
      rw [runSteps_of_ok (h n), runSteps_of_ok (h (n + k)), hnext]
      refine ⟨⟨?_, complaint, ?_, ?_⟩, hlast⟩
      · have hreport : report (n + k) = (report n).later k := by rw [hstep (n + k), hstep n]; rfl
        rw [List.map_cons, hreports, hreport]
      · rw [hfailure, List.length_cons]
        congr 2
        omega
      · rw [hfailure', List.length_cons]
        congr 2
        omega

/-- The transcript of steps from number `n` on: a report of each step that was completed, and of the first one that was not
the error. -/
structure Transcript.Tells (t : Transcript) (n : Nat) (steps : List Step) (r : Replayer) : Prop where
  reported : ∀ i report, t.reports[i]? = some report → ∃ step, steps[i]? = some step ∧ report.step = n + i ∧
    report.action = step.action ∧ ((runSteps n (steps.take i) r).2.runStep (n + i) step).1 = .ok report
  completed : t.failure = none → t.reports.length = steps.length
  failed : ∀ e, t.failure = some e → ∃ step, steps[t.reports.length]? = some step ∧
    ((runSteps n (steps.take t.reports.length) r).2.runStep (n + t.reports.length) step).1 = .error e

theorem tells_of_runStep {r r' : Replayer} {n : Nat} {step : Step} {report : Report}
    (h : r.runStep n step = (.ok report, r')) : report.step = n ∧ report.action = step.action := by
  cases r.course_runStep step with
  | failed c r'' hcourse => exact absurd ((hcourse n).symm.trans h) (by simp)
  | reported numbered r'' hstep hcourse =>
    have hreport : numbered n = report := Except.ok.inj (congrArg Prod.fst ((hcourse n).symm.trans h))
    rw [← hreport, hstep n]
    exact ⟨rfl, rfl⟩

/-- A completed step is told of before what is told of the steps behind it. -/
theorem Transcript.Tells.cons {t : Transcript} {n : Nat} {rest : List Step} {r r' : Replayer} {step : Step} {report : Report}
    (ht : t.Tells (n + 1) rest r') (hstep : r.runStep n step = (.ok report, r')) :
    (⟨report :: t.reports, t.failure⟩ : Transcript).Tells n (step :: rest) r := by
  -- The replayer before a later step is the one that the steps behind the first one lead to.
  have hbefore (i : Nat) : (runSteps n ((step :: rest).take (i + 1)) r).2 = (runSteps (n + 1) (rest.take i) r').2 := by
    rw [List.take_succ_cons, runSteps_of_ok hstep]
  have hnumber (i : Nat) : n + 1 + i = n + (i + 1) := by omega
  refine ⟨?_, fun h => congrArg Nat.succ (ht.completed h), ?_⟩
  · intro i report' h
    cases i with
    | zero =>
      obtain rfl : report = report' := Option.some.inj h
      obtain ⟨hstepped, haction⟩ := tells_of_runStep hstep
      exact ⟨step, rfl, hstepped, haction, congrArg Prod.fst hstep⟩
    | succ i =>
      obtain ⟨step', hget, hstepped, haction, hanswer⟩ := ht.reported i report' h
      rw [hnumber] at hstepped hanswer
      exact ⟨step', hget, hstepped, haction, by rw [hbefore, hanswer]⟩
  · intro e h
    obtain ⟨step', hget, hanswer⟩ := ht.failed e h
    rw [hnumber] at hanswer
    exact ⟨step', hget, by rw [List.length_cons, hbefore, hanswer]⟩

theorem runSteps_tells (steps : List Step) : ∀ (r : Replayer) (n : Nat), (runSteps n steps r).1.Tells n steps r := by
  induction steps with
  | nil =>
    intro r n
    exact ⟨fun i report h => absurd h (by simp [runSteps]), fun _ => rfl, fun e h => absurd h (by simp [runSteps])⟩
  | cons step rest ih =>
    intro r n
    rcases hstep : r.runStep n step with ⟨answer, r'⟩
    cases answer with
    | error e =>
      rw [runSteps_of_error hstep]
      refine ⟨fun i report h => absurd h (by simp), fun h => absurd h (by simp), fun e' h => ⟨step, rfl, ?_⟩⟩
      obtain rfl : e = e' := Option.some.inj h
      exact congrArg Prod.fst hstep
    | ok report =>
      rw [runSteps_of_ok hstep]
      exact (ih r' (n + 1)).cons hstep

/-- A replay of steps behind steps is the replay of the first ones and then, if these all succeed, of the others from there,
which are given numbers from one on again. What is written is cut by its newlines into the lines of the reports, one for each
step that was completed and in their order, with nothing behind the last; a line is a JSON object that gives its number
first, and all that its report tells. -/
theorem replay_composes (r : Replayer) (name : Option String) (origin : List ScriptedAnswer) (before after : List Step) :
    let whole := r.run ⟨name, origin, before ++ after⟩
    let first := r.run ⟨name, origin, before⟩
    let second := first.2.run ⟨name, [], after⟩
    let renumbered := second.1.reports.map (Report.later before.length)
    (first.1.failure = none → whole.2 = second.2 ∧ whole.1.reports = first.1.reports ++ renumbered ∧
      whole.1.output = first.1.output ++ (⟨renumbered, none⟩ : Transcript).output ∧
      ∃ complaint : Option Complaint, second.1.failure = complaint.map (Complaint.at (1 + second.1.reports.length)) ∧
        whole.1.failure = complaint.map (Complaint.at (1 + whole.1.reports.length))) ∧
    (first.1.failure ≠ none → whole = first) ∧
    whole.1.Tells 1 (before ++ after) (r.script origin) ∧
    whole.1.output.splitOn 0x0a = whole.1.reports.map (fun report => Text.toBytes report.line) ++ [[]] ∧
    ∀ report ∈ whole.1.reports, 0x0a ∉ Text.toBytes report.line ∧
      Json.parse? report.line = some (.ofFields report.fields) ∧ ∃ rest,
      report.line.toList = ['\x7b', '"', 's', 't', 'e', 'p', '"', ':'] ++ Nat.toDigits 10 report.step ++ ',' :: rest := by
  intro whole first second renumbered
  refine ⟨?_, ?_, runSteps_tells _ _ _, Transcript.splitOn_output _, ?_⟩
  · intro hok
    have hwhole := runSteps_append_of_ok before after (r.script origin) 1 hok
    obtain ⟨⟨hreports, complaint, hfailure, hfailure'⟩, hlast⟩ := runSteps_later before.length after first.2 1
    have hcompleted := (runSteps_tells before (r.script origin) 1).completed hok
    have hwholeReports : whole.1.reports = first.1.reports ++ renumbered := by
      calc whole.1.reports
          = first.1.reports ++ (runSteps (1 + before.length) after first.2).1.reports := congrArg (·.1.reports) hwhole
        _ = first.1.reports ++ renumbered := congrArg (first.1.reports ++ ·) hreports
    refine ⟨(congrArg Prod.snd hwhole).trans hlast, hwholeReports, ?_, complaint, hfailure, ?_⟩
    · rw [Transcript.output, hwholeReports]
      exact List.flatMap_append
    · -- The second steps were numbered from one on, and come behind the first ones now.
      have hlength : 1 + whole.1.reports.length = 1 + second.1.reports.length + before.length := by
        rw [hwholeReports, List.length_append, List.length_map]
        have hfirst : first.1.reports.length = before.length := hcompleted
        omega
      rw [hlength]
      exact (congrArg (·.1.failure) hwhole).trans hfailure'
  · exact runSteps_append_of_error before after (r.script origin) 1
  · intro report _
    obtain ⟨rest, hrest⟩ := report.exists_print_eq
    refine ⟨report.newline_not_mem_line, report.parse?_line, rest, ?_⟩
    rw [Report.line, Json.render, String.toList_ofList, hrest]

end Replayer
end ResponseCache
