import ScriptHost.Proofs.Placement.Statements

/-! Positions are true. Every span of the statements and expressions of a script, also of those in
interpolated strings, and every span of its faults has the places of the script that it names, and
the parts of an expression stand inside it. -/

namespace ScriptHost

variable {text : List UInt8} {top : Nat} {c d : Cursor}

/-- An item of a script with true spans: a statement, or a fault. -/
def PlacedItem (text : List UInt8) : Except SyntaxError Stmt → Prop
  | .ok s => s.Placed text
  | .error e => e.span.TrueIn text

/-- The next item is placed, and the tokens behind it are a row again, also after a fault. -/
theorem item?_placed {levels : Nat} {item : Except SyntaxError Stmt} (sound : c.Sound text top)
    (next : c.item? levels = some (item, d)) : PlacedItem text item ∧ d.Sound text top := by
  unfold Cursor.item? at next
  dsimp only at next
  have start := sound.ahead.skipNewlines.2.toSound
  generalize Cursor.skipNewlines c.tokens c.last = c₁ at next start
  have given := Gives.item levels c₁ start
  unfold Finds at given
  split at next
  · cases next
  · split at next
    · rename_i s rest run
      rw [run] at given
      cases next
      exact given
    · rename_i e rest run
      rw [run] at given
      cases next
      exact ⟨given.1, given.2.recover 0⟩

theorem itemsUpTo_placed (levels : Nat) (fuel : List Token) (sound : c.Sound text top) :
    ∀ item ∈ c.itemsUpTo levels fuel, PlacedItem text item := by
  induction fuel generalizing c with
  | nil => exact nofun
  | cons _ fuel ih =>
    unfold Cursor.itemsUpTo
    cases next : c.item? levels with
    | none => exact nofun
    | some found =>
      obtain ⟨placed, after⟩ := item?_placed sound next
      exact List.forall_mem_cons.mpr ⟨placed, ih after⟩

theorem items_placed (source : String) :
    ∀ item ∈ items (tokens source), PlacedItem (Utf8.encode source) item :=
  itemsUpTo_placed _ _ (Cursor.ahead_start (row_tokens source)).toSound

/-- The spans of the statements of a script are true, and so are those of its faults. -/
theorem parseModule_placed (source : String) :
    match parseModule source with
    | .ok statements => ∀ s ∈ statements, s.Placed (Utf8.encode source)
    | .error faults => ∀ e ∈ faults, e.span.TrueIn (Utf8.encode source) := by
  have placed := items_placed source
  unfold parseModule
  dsimp only
  split
  · rename_i statements found
    split at found
    · cases found
      intro s there
      obtain ⟨item, mem, same⟩ := List.mem_filterMap.mp there
      cases item with
      | ok s' =>
        cases same
        exact placed _ mem
      | error e => cases same
    · cases found
  · rename_i faults found
    split at found
    · cases found
    · cases found
      intro e there
      obtain ⟨item, mem, same⟩ := List.mem_filterMap.mp there
      cases item with
      | ok s => cases same
      | error e' =>
        cases same
        exact placed _ mem

end ScriptHost
