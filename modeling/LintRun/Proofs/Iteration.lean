import LintRun.Proofs.Course
import LintRun.Proofs.RunLaws

/-!
# Iterations

An iteration takes the steps of a walk one by one. What its steps do, from its start to its end, is
a course of the tasks of the walk, and the counters count what is in the course.
-/

namespace LintRun

open Run (Triple)

section
variable {σ : Type} (host : Host σ) {s : σ}

namespace Walk

def Pull.files : Pull → List String
  | .file path _ => [path]
  | _ => []

theorem next_triple (walk : Walk) (fuel : Nat) (tasks : List Task) (counters : Counters) :
    Triple (walk.next host.runList fuel tasks counters) s
      (fun events out t => Quiet events ∧ t = host.after s events ∧
        ∃ log, walk.Pulls (fuel + 1) tasks log (host.listed s events) out.1 ∧
          out.2 = walk.countersAfter counters log out.1.files)
      fun _ _ _ => False := by
  fun_induction Walk.next walk host.runList fuel tasks counters generalizing s with
  | case1 => exact Triple.pure ⟨Quiet.nil, rfl, [], .ended (.finished (.stop [])), rfl⟩
  | case2 => exact Triple.pure ⟨Quiet.nil, rfl, [], .file (.file (.stop _)), rfl⟩
  | case3 =>
    exact Triple.pure ⟨Quiet.nil, rfl, [], .ended (.exhausted (.stop _) (Nat.le_refl 1)), rfl⟩
  | case4 fuel path rest counters ih =>
    refine Triple.seq (host.runList_triple s (walk.pathOf path)) ?_
    rintro _ listing _ ⟨rfl, hlisting, rfl⟩
    have hquiet : Quiet [.list (walk.pathOf path)] := Quiet.singleton rfl
    cases listing with
    | error e =>
      refine Triple.pure ⟨hquiet, rfl, [], .ended ?_, rfl⟩
      simpa [← hlisting] using Ends.failed e (.stop (.directory path :: rest))
    | ok entries =>
      refine (ih entries).mono ?_ fun _ _ _ h => h
      rintro later out _ ⟨hlater, rfl, log, hpulls, hcounters⟩
      refine ⟨hquiet.append hlater, rfl, (path, entries) :: log, ?_, ?_⟩
      · simpa [← hlisting] using hpulls.directory
      · have hfirst := walk.length_skippedItems_singleton path entries
        have hsplit := walk.countersAfter_append counters [(path, entries)] log [] out.1.files
        simpa [hcounters, countersAfter, hfirst] using hsplit.symm

end Walk

namespace Provider

section
variable {m : Type → Type} [Monad m]

/-- Takes the steps of an iteration up to its end: the files that it comes to, how it ends, and the
provider then. The fuel bounds the number of steps, and the listings of each. -/
def drain (walk : Walk) (list : Path → m (Except OsError (List Entry))) (name : String) :
    Nat → Provider → m (List String × Walk.Pull × Provider)
  | 0, provider => pure ([], .exhausted, provider)
  | fuel + 1, provider => do
    let (pull, provider) ← provider.advance walk list fuel name
    match pull with
    | .file path _ =>
      let (files, last, provider) ← drain walk list name fuel provider
      return (path :: files, last, provider)
    | last => return ([], last, provider)

end

variable {walk : Walk} {tasks : List Walk.Task} {counters : Counters} {name : String}
  {provider : Provider}

@[simp] theorem progress_setProgress (provider : Provider) (name : String) (progress : Progress) :
    (provider.setProgress name progress).progress name = progress := by
  simp [Provider.progress, setProgress]

/-- An iteration that has been started counts from zero, whatever was counted before. -/
@[simp] theorem begun?_start (walk : Walk) (provider : Provider) (name : String) :
    (provider.start name).begun? walk name = some (walk.tasks, {}) := by
  simp [begun?, start]

theorem advance_triple (fuel : Nat) (hbegun : provider.begun? walk name = some (tasks, counters))
    (s : σ) :
    Triple (provider.advance walk host.runList fuel name) s
      (fun events out t => Quiet events ∧ t = host.after s events ∧
        (∃ log, walk.Pulls (fuel + 1) tasks log (host.listed s events) out.1 ∧
          out.2.counters = walk.countersAfter counters log out.1.files) ∧
        out.2.progress name = progressAfter out.1)
      fun _ _ _ => False := by
  unfold advance
  rw [hbegun]
  refine Triple.seq (walk.next_triple host fuel tasks counters) ?_
  rintro events ⟨pull, counted⟩ _ ⟨hquiet, rfl, hpulls⟩
  refine Triple.pure ⟨?_, ?_, ?_, ?_⟩
  · simpa using hquiet
  · simp
  · simpa using hpulls
  · exact progress_setProgress provider name _

theorem drain_triple (fuel : Nat) (hbegun : provider.begun? walk name = some (tasks, counters))
    (s : σ) :
    Triple (provider.drain walk host.runList name fuel) s
      (fun events out _ => ∃ log,
        walk.Ends fuel tasks log out.1 (host.listed s events) out.2.1 ∧
          (out.2.1 = .finished → out.2.2.counters = walk.countersAfter counters log out.1))
      fun _ _ _ => False := by
  induction fuel generalizing provider tasks counters s with
  | zero =>
    exact Triple.pure ⟨[], .exhausted (.stop tasks) (Nat.zero_le _), fun hlast => nomatch hlast⟩
  | succ fuel ih =>
    rw [drain]
    refine Triple.seq (advance_triple host fuel hbegun s) ?_
    rintro events ⟨pull, provider⟩ _ ⟨-, rfl, ⟨log, hpulls, hcounters⟩, hprogress⟩
    dsimp only at hpulls hcounters hprogress ⊢
    generalize hlisted : host.listed s events = answers at hpulls
    cases hpulls with
    | ended hends =>
      have hlast : ∃ log, walk.Ends (fuel + 1) tasks log [] (host.listed s (events ++ [])) pull ∧
          (pull = .finished → provider.counters = walk.countersAfter counters log []) := by
        refine ⟨log, by rwa [List.append_nil, hlisted], ?_⟩
        rintro rfl
        exact hcounters
      cases hends <;> exact Triple.pure hlast
    | @file path rest hcourse =>
      have hrest : provider.begun? walk name = some (rest, provider.counters) := by
        simp [begun?, hprogress, progressAfter]
      refine Triple.seq (ih hrest _) ?_
      rintro later ⟨files, last, after⟩ _ ⟨more, hends, hcounted⟩
      refine Triple.pure ⟨log ++ more, ?_, fun hlast => ?_⟩
      · simpa [hlisted] using hends.cons hcourse
      · rw [hcounted hlast, hcounters]
        exact (walk.countersAfter_append counters log more [path] files).symm

end Provider

end

end LintRun
