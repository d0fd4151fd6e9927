import SharedMailbox.Demo.Script

namespace SharedMailbox.Demo

/-!
# Scripts that run to their end

What a script makes of a fabric, what it returns and what it prints, put together from its steps.

* `Script.Runs`: a script runs to its end.
* `Runs.bind`, `runs_forM`: one script after another, and one for each entry of a list.
* `runs_act`, `runs_send`, `runs_await` and so on: the steps.
-/

namespace Script

variable {α β : Type} {net mid after : Network} {a : α} {b : β} {p w : List String}

/-- A script on a fabric runs to its end: it leaves a fabric, returns a value, and has printed these
    lines after those that were printed before. -/
def Runs (s : Script α) (net : Network) (a : α) (after : Network) (p : List String) : Prop :=
  ∀ lines : Array String, s.run.run ⟨net, lines⟩ = (.ok a, ⟨after, lines ++ p.toArray⟩)

/-- A script that does nothing runs to its end. -/
theorem runs_pure (net : Network) (a : α) : Runs (pure a) net a net [] := by
  intro lines
  rw [Array.append_empty]
  rfl

/-- One script after another runs to its end if both do, and their lines follow each other. -/
theorem Runs.bind {s : Script α} {f : α → Script β} (first : Runs s net a mid p)
    (later : Runs (f a) mid b after w) : Runs (s >>= f) net b after (p ++ w) := by
  intro lines
  have same : lines ++ (p ++ w).toArray = (lines ++ p.toArray) ++ w.toArray := by simp
  rw [ExceptT.run_bind, StateT.run_bind, first lines, same]
  exact later (lines ++ p.toArray)

/-- A step that changes the fabric and prints nothing. -/
theorem runs_modify (net : Network) (f : Network → Network) :
    Runs (modify fun s => { s with net := f s.net }) net () (f net) [] := by
  intro lines
  rfl

/-- A line is printed. -/
theorem runs_print (net : Network) (line : String) : Runs (print line) net () net [line] := by
  intro lines
  rfl

/-- One thing is done, and all rings reach their destinations. -/
theorem runs_act (net : Network) (action : Action) :
    Runs (act action) net (net.perform .queue action).1 (net.perform .queue action).2.settle
      [] := by
  intro lines
  rw [Array.append_empty, act]
  simp only [bind_pure_comp]
  rfl

/-- A look at the fabric changes nothing. -/
theorem run_get (f : Stage → Script β) (stage : Stage) :
    (get >>= f : Script β).run.run stage = (f stage).run.run stage := rfl

/-- A script that looks at the fabric first runs to its end if it does from there. -/
theorem runs_get {f : Stage → Script β} (later : ∀ lines, Runs (f ⟨net, lines⟩) net b after p) :
    Runs (get >>= f) net b after p := by
  intro lines
  rw [run_get]
  exact later lines lines

/-- A peer attaches, if the fabric lets it. -/
theorem runs_attach {peer : PeerId} {config : EndpointConfig} {host : HostAnswer}
    (made : Fabric.attach net peer config host = .ok after) :
    Runs (attach host config peer) net () after [] := by
  intro lines
  rw [Array.append_empty, attach, run_get]
  simp only [made]
  rfl

/-! ### Messages -/

/-- A message is sent, if the send succeeds. -/
theorem runs_send {sender receiver : PeerId} {message : List UInt8} {len : Nat}
    (sent : (net.perform .queue (.send sender .sleep (.peer receiver) message)).1 =
      .sent (.ok len)) :
    Runs (send sender receiver message) net ()
      (net.perform .queue (.send sender .sleep (.peer receiver) message)).2.settle [] := by
  have acted := runs_act net (.send sender .sleep (.peer receiver) message)
  rw [sent] at acted
  exact acted.bind (runs_pure _ ())

/-- A wait that finds a delivery returns its sender and its message. -/
theorem runs_await {peer : PeerId} {incoming : Incoming}
    (received : (net.perform .queue (.await peer .limited)).1 = .received (.ok incoming))
    (leads : (net.perform .queue (.await peer .limited)).2.settle = after) :
    Runs (await peer) net (incoming.sender, incoming.payload after.memory) after [] := by
  have acted := runs_act net (.await peer .limited)
  rw [received, leads] at acted
  refine acted.bind (w := []) fun lines => ?_
  rw [Array.append_empty]
  rfl

/-! ### Lists -/

/-- What holds of the entries that are done and the fabric, and goes on with each entry, holds at
    the end. -/
theorem runs_forM {γ : Type} (I : List γ → Network → Prop) (f : γ → Script Unit)
    (lines : γ → List String) (todo : List γ)
    (step : ∀ done c rest net, todo = done ++ c :: rest → I done net →
      ∃ after, I (done ++ [c]) after ∧ Runs (f c) net () after (lines c))
    (start : I [] net) : ∃ after, I todo after ∧ Runs (todo.forM f) net () after
      (todo.flatMap lines) := by
  -- stated for what is left of the list, with what is done in the invariant
  suffices goes : ∀ done rest net, todo = done ++ rest → I done net → ∃ after, I todo after ∧
      Runs (rest.forM f) net () after (rest.flatMap lines) from goes [] todo net rfl start
  intro done rest
  induction rest generalizing done with
  | nil =>
    intro net split here
    rw [List.append_nil] at split
    exact ⟨net, split ▸ here, runs_pure net ()⟩
  | cons c rest ih =>
    intro net split here
    obtain ⟨mid, there, first⟩ := step done c rest net split here
    obtain ⟨after, all, later⟩ := ih (done ++ [c]) mid (by simp [split]) there
    exact ⟨after, all, first.bind later⟩

end Script

end SharedMailbox.Demo
