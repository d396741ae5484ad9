import ScriptHost.Proofs.Construction
import ScriptHost.Proofs.Lists.Growth
import ScriptHost.Proofs.Narrowing

/-! Lists as sequences that are shared. A list is a place in the heap, whatever refers to it. Over
whatever a program does, what is there is one sequence, to which the method for it adds one value at
a time, at the end; nothing else changes it. The methods that read it, and a loop over it, see it as
it is when they start. -/

namespace ScriptHost

variable {H : Type}

/-! ### Subscripts -/

/-- What a subscript means in a sequence: a number that is exactly `k`, or `k` less the length,
means element `k`, and nothing else means an element. -/
inductive ElementAt (items : Array Value) : Value → Except RuntimeFault Value → Prop
  | forward {x : Float} {k : Nat} {v : Value} : (Binary.ofFloat x).rational? = some (k : ℚ) →
    items[k]? = some v → ElementAt items (.number x) (.ok v)
  | backward {x : Float} {k : Nat} {v : Value} :
    (Binary.ofFloat x).rational? = some (k - items.size : ℚ) → items[k]? = some v →
    ElementAt items (.number x) (.ok v)
  | outside {x : Float} {i : ℤ} : (Binary.ofFloat x).rational? = some (i : ℚ) →
    i < -items.size ∨ items.size ≤ i → ElementAt items (.number x) (.error .subscriptOutOfBounds)
  | fraction {x : Float} : (∀ i : ℤ, (Binary.ofFloat x).rational? ≠ some (i : ℚ)) →
    ElementAt items (.number x) (.error .subscriptNotInteger)
  | other {index : Value} : (∀ x, index ≠ .number x) →
    ElementAt items index (.error .subscriptNotNumber)

/-- A sequence that is not longer than the integers that it is measured with. None that memory can
hold is. -/
def Measured (items : Array Value) : Prop := items.size ≤ (IntegerRange.signed 64).greatest

instance (items : Array Value) : Decidable (Measured items) :=
  inferInstanceAs (Decidable ((items.size : ℤ) ≤ (IntegerRange.signed 64).greatest))

theorem IntegerRange.signed_clamp (i : ℤ) : (IntegerRange.signed 64).clamp i =
    max (-9223372036854775808) (min i 9223372036854775807) := rfl

theorem subscript_elementAt {items : Array Value} (measured : Measured items) (index : Value) :
    ElementAt items index (subscript items index) := by
  cases index with
  | number x =>
    replace measured : (items.size : ℤ) ≤ 9223372036854775807 := measured
    unfold subscript
    dsimp only
    split
    case isFalse fraction =>
      refine .fraction fun i value => fraction (Binary.isIntegral_iff.mpr ⟨i, value⟩)
    case isTrue integral =>
      obtain ⟨i, value⟩ := Binary.isIntegral_iff.mp integral
      rw [IntegerRange.narrow_of_exact value, Binary.cut_intCast]
      have clamped := IntegerRange.signed_clamp i
      generalize (IntegerRange.signed 64).clamp i = j at clamped
      generalize placed : (if j < 0 then j + items.size else j) = place
      split
      case isTrue low => exact .outside value (.inl (by split at placed <;> omega))
      case isFalse notLow =>
        obtain ⟨k, rfl⟩ := Int.eq_ofNat_of_zero_le (not_lt.mp notLow)
        rw [Int.toNat_natCast]
        cases found : items[k]? with
        | none =>
          have long := Array.getElem?_eq_none_iff.mp found
          exact .outside value (.inr (by split at placed <;> omega))
        | some v =>
          obtain ⟨there, -⟩ := Array.getElem?_eq_some_iff.mp found
          by_cases before : j < 0
          · rw [if_pos before] at placed
            have back : i = (k : ℤ) - items.size := by omega
            refine .backward (value.trans (congrArg some ?_)) found
            rw [back]
            push_cast
            rfl
          · rw [if_neg before] at placed
            have same : i = (k : ℤ) := by omega
            exact .forward (value.trans (by rw [same]; rfl)) found
  | _ => exact .other fun x same => by cases same

/-- No sum on the way to an element leaves the range of the integers that it is made in. -/
theorem subscript_within (x : Float) {items : Array Value} (measured : Measured items) :
    let i := (IntegerRange.signed 64).narrow (Binary.ofFloat x)
    (IntegerRange.signed 64).Holds i ∧
      (i < 0 → (IntegerRange.signed 64).Holds (i + items.size)) := by
  have within : (IntegerRange.signed 64).Holds ((IntegerRange.signed 64).narrow _) :=
    IntegerRange.narrow_holds ⟨by decide, by decide⟩ (Binary.ofFloat x)
  refine ⟨within, fun before => ?_⟩
  unfold Measured at measured
  unfold IntegerRange.Holds at within ⊢
  omega

/-! ### Messages to lists -/

/-- A machine whose lists are sequences, whatever the host and whatever else would be run: the
method that adds changes one of them, and those that read see it as it is. -/
structure Machine.Sequences (m : Machine H) : Prop where
  add : ∀ (host : Host H) (engine : Engine H) (id : ListId) (v : Value),
    (invoke host engine (.list id) "add(_)" [v]).run m =
      .ok (.ok v) (m.mapHeap (·.append id v))
  appended : ∀ (id : ListId) (v : Value), ∀ other < m.heap.lists.size,
    ((m.heap.append id v).list other).toList =
      (m.heap.list other).toList ++ if id = other then [v] else []
  count : ∀ (host : Host H) (engine : Engine H) (id : ListId),
    (invoke host engine (.list id) "count" []).run m =
      .ok (.ok (numberOfNat (m.heap.list id).size)) m
  element : ∀ (host : Host H) (engine : Engine H) (id : ListId) (index : Value),
    Measured (m.heap.list id) → ∃ r, ElementAt (m.heap.list id) index r ∧
      (invoke host engine (.list id) "[_]" [index]).run m = .ok (r.mapError (⟨·, []⟩)) m
  text : ∀ (host : Host H) (engine : Engine H) (id : ListId),
    (invoke host engine (.list id) "toString" []).run m =
      (do
        let texts ← engine.textsOf (m.heap.list id).toList
        return .string ("[" ++ String.intercalate ", " texts ++ "]") : Run H Value).run m

/-- A message to a list is answered by the machine's own method for it. -/
theorem Machine.HasCore.invoke_list {m : Machine H} (core : m.HasCore) (host : Host H)
    (engine : Engine H) (id : ListId) {signature : String} {p : Primitive}
    (own : CoreClass.list.object.methods.get? signature = some (.primitive p))
    (args : List Value) :
    (invoke host engine (.list id) signature args).run m =
      (p.apply engine (.list id) args).run m := by
  rw [invoke_run, core.method?_core rfl, own]

theorem Machine.HasCore.sequences {m : Machine H} (core : m.HasCore) : m.Sequences where
  add host engine id v := (core.invoke_list host engine id (p := .append) rfl [v]).trans rfl
  appended id v other there := (Heap.list_append m.heap there id v).2
  count host engine id := (core.invoke_list host engine id (p := .listCount) rfl []).trans rfl
  element host engine id index measured := by
    refine ⟨_, subscript_elementAt measured index, ?_⟩
    rw [core.invoke_list host engine id (p := .subscript) rfl]
    change (Primitive.answer (subscript (m.heap.list id) index)).run m = _
    cases subscript (m.heap.list id) index <;> rfl
  text host engine id := (core.invoke_list host engine id (p := .listText) rfl []).trans rfl

/-! ### Expressions and loops -/

/-- A new list has a place of its own, and what it was made with. -/
theorem Heap.list_addList (h : Heap) (items : Array Value) :
    h.lists.size < (h.addList items).2.lists.size ∧
      (h.addList items).2.list h.lists.size = items := by
  unfold addList list
  rw [Array.size_push, Array.getElem?_push_size]
  exact ⟨Nat.lt_succ_self _, rfl⟩

namespace Script

variable {engine : Engine H} {f g k : Frame} {m n o : Machine H}

/-- Two parts in a row, when the first is known to halt. -/
theorem bind_halted {α β : Type} {x : Script H α} {g : α → Script H β} {h : Halt}
    (ran : x.run.run f m = .error h n) : (x >>= g).run.run f m = .error h n := by
  change EStateM.bind (x.run.run f) _ m = _
  unfold EStateM.bind
  rw [ran]

theorem literal_run {elements : List Expr} {vs : List Value} (span : Span)
    (evaluated : (evalAll engine elements).run.run f m = .ok (.ok vs, g) n) :
    (eval engine (.list span elements)).run.run f m =
      .ok (.ok (.list n.heap.lists.size), g) (n.mapHeap fun h => (h.addList vs.toArray).2) := by
  unfold eval
  rw [bind_run evaluated]
  rfl

/-- The expression `xs[i]`, once the list and the subscript are there. -/
theorem element_run {host : Host H} (depth : Nat) {receiver index : Expr} {id : ListId}
    {i : Value} (span : Span)
    (list : (eval (host.engine (depth + 1)) receiver).run.run f m = .ok (.ok (.list id), g) n)
    (subscript : (eval (host.engine (depth + 1)) index).run.run g n = .ok (.ok i, k) o)
    (sequences : o.Sequences) (measured : Measured (o.heap.list id)) :
    ∃ r, ElementAt (o.heap.list id) i r ∧
      (eval (host.engine (depth + 1)) (.subscript span receiver index)).run.run f m =
        .ok (r.mapError (⟨·, []⟩), k) o := by
  obtain ⟨r, found, ran⟩ := sequences.element host (host.engine depth) id i measured
  refine ⟨r, found, ?_⟩
  unfold eval
  rw [bind_run list, bind_run subscript]
  exact Live.bind_run (x := (invoke host _ (.list id) "[_]" [i]).run) ran

end Script

/-- Turns of a loop that all come to their end, one for each value in order, each from where the one
before it ended. -/
inductive Turns (name : String) (body : Script H Flow) :
    List Value → Frame → Machine H → Frame → Machine H → Prop
  | done {f : Frame} {m : Machine H} : Turns name body [] f m f m
  | turn {v : Value} {rest : List Value} {f g k : Frame} {m n o : Machine H} :
    (Script.inScope [(name, v)] body).run.run f m = .ok (.ok .normal, g) n →
    Turns name body rest g n k o → Turns name body (v :: rest) f m k o

/-- How a turn ends that is the last before the end of its loop, and the loop with it. -/
inductive EndsLoop : EStateM.Result Halt (Machine H) (Except RuntimeError Flow × Frame) →
    EStateM.Result Halt (Machine H) (Except RuntimeError Flow × Frame) → Prop
  | broken (f : Frame) (m : Machine H) : EndsLoop (.ok (.ok .broken, f) m) (.ok (.ok .normal, f) m)
  | returned (v : Value) (f : Frame) (m : Machine H) :
    EndsLoop (.ok (.ok (.returned v), f) m) (.ok (.ok (.returned v), f) m)
  | fault (e : RuntimeError) (f : Frame) (m : Machine H) :
    EndsLoop (.ok (.error e, f) m) (.ok (.error e, f) m)
  | halt (h : Halt) (m : Machine H) : EndsLoop (.error h m) (.error h m)

theorem forEach_turns (name : String) (body : Script H Flow) (vs : List Value) (f : Frame)
    (m : Machine H) :
    (∃ g n, Turns name body vs f m g n ∧
      (forEach name body vs).run.run f m = .ok (.ok .normal, g) n) ∨
    ∃ before v rest g n, vs = before ++ v :: rest ∧ Turns name body before f m g n ∧
      EndsLoop ((Script.inScope [(name, v)] body).run.run g n)
        ((forEach name body vs).run.run f m) := by
  induction vs generalizing f m with
  | nil => exact .inl ⟨f, m, .done, rfl⟩
  | cons v rest ih =>
    unfold forEach
    cases turn : (Script.inScope [(name, v)] body).run.run f m with
    | error h n =>
      refine .inr ⟨[], v, rest, f, m, rfl, .done, ?_⟩
      rw [turn, Script.bind_halted turn]
      exact .halt h n
    | ok r n =>
      obtain ⟨e | flow, g⟩ := r
      · refine .inr ⟨[], v, rest, f, m, rfl, .done, ?_⟩
        rw [turn, Script.bind_failed turn]
        exact .fault e g n
      · rw [Script.bind_run turn]
        cases flow with
        | normal =>
          obtain ⟨k, o, turns, ran⟩ | ⟨before, w, later, k, o, rfl, turns, ends⟩ := ih g n
          · exact .inl ⟨k, o, .turn turn turns, ran⟩
          · exact .inr ⟨v :: before, w, later, k, o, rfl, .turn turn turns, ends⟩
        | broken =>
          refine .inr ⟨[], v, rest, f, m, rfl, .done, ?_⟩
          rw [turn]
          exact .broken g n
        | returned w =>
          refine .inr ⟨[], v, rest, f, m, rfl, .done, ?_⟩
          rw [turn]
          exact .returned w g n

/-- A loop over a list takes turns for what the list holds when the loop starts. -/
theorem forLoop_run {engine : Engine H} {f g : Frame} {m n : Machine H} {sequence : Expr}
    {id : ListId} (name : String) (body : Stmt)
    (list : (eval engine sequence).run.run { f with line := sequence.span.line } m =
      .ok (.ok (.list id), g) n) :
    (exec engine (.forLoop name sequence body)).run.run f m =
      (forEach name (exec engine body) (n.heap.list id).toList).run.run g n := by
  have marked : (markLine (.forLoop name sequence body) : Script H Unit).run.run f m =
      .ok (.ok (), { f with line := sequence.span.line }) m := rfl
  conv_lhs => unfold exec
  rw [Script.bind_run marked]
  dsimp only
  rw [Script.bind_run list]
  rfl

/-! ### What programs do to lists -/

open Chronicled (plain)

/-- What happens to lists from one heap to another: each has what it had and what was added to it,
at the end and at each moment in between, and at each moment lists are sequences. -/
structure Sequenced (h : Heap) (past : List (Moment H)) (h' : Heap) : Prop where
  whole : h.Appended past h'
  parts : ∀ recent x older, past = recent ++ x :: older →
    h.Appended older x.machine.heap ∧ x.machine.heap.Appended (recent ++ [x]) h'
  between : ∀ recent y middle x older, past = recent ++ y :: (middle ++ x :: older) →
    x.machine.heap.Appended (middle ++ [x]) y.machine.heap
  moments : ∀ x ∈ past, x.machine.Sequences

theorem Heap.Leads.sequenced {h h' : Heap} {past : List (Moment H)} (leads : h.Leads past h') :
    Sequenced h past h' where
  whole := leads.appended
  parts := by
    rintro recent x older rfl
    exact ⟨leads.split.1.appended, leads.split.2.appended⟩
  between := by
    rintro recent y middle x older rfl
    exact leads.split.1.split.2.appended
  moments _ among := (leads.hasCore among).sequences

/-- Lists are sequences that are shared. Whatever a program does with its machine, in dialogues from
outside and from host functions, or in the steps of a session: every list that is there at some
moment is there at any later one, with what it had and then what the messages in between added to
it, one value for each, and no record of these moments changes what the program does. At every
moment, on every machine that a program has, and on each that is made, the methods of lists read the
sequence as it is; a subscript means one element or is a fault, and no sum on the way to it
overflows. A literal makes a list of its own. A loop takes one turn for each element of its list as
it is when the loop starts, in order, whatever happens to the list; it ends with the last of them or
with a turn that ends it. -/
theorem lists_shared_sequences :
    (∀ (c : Conduct) (depth : Nat) (d : Dialogue) (m : Machine Desk), m.HasCore →
      let told := Chronicled.hold c depth d m
      Chronicled.forget told = d.hold (Desk.serve (c.host.engine depth)) m ∧
      Sequenced m.heap (Live.machine told).host.past (Live.machine told).heap ∧
      (Live.machine told).HasCore) ∧
    (∀ desk : Desk, (Machine.fresh desk).HasCore) ∧
    (∀ files ss s j, (Program.after files ss).job? s = some j →
      ((Program.after files ss).step s).2 = (Program.after files ss).leave j.name
        (plain (Live.machine (Chronicled.work (Program.after files ss) j)))) ∧
    (∀ files ss ts, Sequenced (Program.after files ss).heap ((Program.after files ss).past ts)
      (Program.after files (ss ++ ts)).heap) ∧
    (∀ {H : Type} (m : Machine H), m.HasCore → m.Sequences) ∧
    (∀ (x : Float) (items : Array Value), Measured items →
      let i := (IntegerRange.signed 64).narrow (Binary.ofFloat x)
      (IntegerRange.signed 64).Holds i ∧
        (i < 0 → (IntegerRange.signed 64).Holds (i + items.size))) ∧
    (∀ {H : Type} (host : Host H) (depth : Nat) (receiver index : Expr) (f g k : Frame)
      (m n o : Machine H) (id : ListId) (i : Value) (span : Span),
      (eval (host.engine (depth + 1)) receiver).run.run f m = .ok (.ok (.list id), g) n →
      (eval (host.engine (depth + 1)) index).run.run g n = .ok (.ok i, k) o →
      o.Sequences → Measured (o.heap.list id) →
      ∃ r, ElementAt (o.heap.list id) i r ∧
        (eval (host.engine (depth + 1)) (.subscript span receiver index)).run.run f m =
          .ok (r.mapError (⟨·, []⟩), k) o) ∧
    (∀ {H : Type} (engine : Engine H) (elements : List Expr) (f g : Frame) (m n : Machine H)
      (vs : List Value) (span : Span),
      (evalAll engine elements).run.run f m = .ok (.ok vs, g) n →
      ∃ o id, (eval engine (.list span elements)).run.run f m = .ok (.ok (.list id), g) o ∧
        n.heap.lists.size ≤ id ∧ id < o.heap.lists.size ∧ (o.heap.list id).toList = vs ∧
        n.heap.Appended ([] : List (Moment H)) o.heap) ∧
    (∀ {H : Type} (engine : Engine H) (name : String) (sequence : Expr) (body : Stmt)
      (f g : Frame) (m n : Machine H) (id : ListId),
      (eval engine sequence).run.run { f with line := sequence.span.line } m =
        .ok (.ok (.list id), g) n →
      (∃ k o, Turns name (exec engine body) (n.heap.list id).toList g n k o ∧
        (exec engine (.forLoop name sequence body)).run.run f m = .ok (.ok .normal, k) o) ∨
      ∃ before v rest k o, (n.heap.list id).toList = before ++ v :: rest ∧
        Turns name (exec engine body) before g n k o ∧
        EndsLoop ((Script.inScope [(name, v)] (exec engine body)).run.run k o)
          ((exec engine (.forLoop name sequence body)).run.run f m)) := by
  refine ⟨fun c depth d m core => ?_, fun desk => Machine.fresh_hasCore desk,
    fun files ss s j job => (Program.leads_work (Program.hasCores_after files ss) job).1,
    fun files ss ts => ?_, fun m core => core.sequences,
    fun x items measured => subscript_within x measured,
    fun host depth receiver index f g k m n o id i span => Script.element_run depth span,
    fun engine elements f g m n vs span evaluated => ?_,
    fun engine name sequence body f g m n id list => ?_⟩
  · obtain ⟨same, leads, core⟩ := leads_hold c depth d core
    exact ⟨same, leads.sequenced, core⟩
  · rw [Program.after_append]
    exact (Program.leads_steps (Program.hasCores_after files ss) ts).1.sequenced
  · obtain ⟨there, content⟩ := n.heap.list_addList vs.toArray
    refine ⟨_, _, Script.literal_run span evaluated, le_rfl, there, ?_,
      .of_growsTo (.addList n.heap vs.toArray)⟩
    exact congrArg Array.toList content
  · rw [forLoop_run name body list]
    exact forEach_turns name (exec engine body) (n.heap.list id).toList g n

/-- A script whose lists are in variables, fields, elements and arguments, and are added to while
they are gone through and while their text is made. -/
def sharing : String :=
  "class Box \x7b\n  construct new(list) \x7b _list = list \x7d\n" ++
    "  add(x) \x7b _list.add(x) \x7d\n" ++
    "  toString \x7b\n    _list.add(0)\n    return \"box\"\n  \x7d\n\x7d\n" ++
    "var xs = [1, 2]\nvar ys = xs\nvar box = Box.new(xs)\nvar nested = [xs]\n" ++
    "box.add(3)\nnested[0].add(4)\nvar seen = []\n" ++
    "for (x in ys) \x7b\n  xs.add(x * 10)\n  seen.add(x)\n\x7d\n" ++
    "ys.add(box)\nvar all = [xs.toString, xs, seen, ys[0], xs[-1], xs[-10], ys[9], nested[0].count]"

/-- A machine with a list that an activation refers to, and that activation. -/
def holding : Machine Desk × Frame :=
  ((Machine.fresh .empty).mapHeap fun h => (h.addList #[.bool true]).2,
    { Frame.ofModule "main" with scopes := [[("xs", .list 0)]] })

/-- The body of the statement `for (x in xs) xs.add(x)`. -/
def doubling : Stmt :=
  .expr (.call default (.variable default "xs") "add" [.variable default "x"])

/-- The script run by an embedding program, and as a step of a session: the first list has two
elements at the first moment, and eight more at the end. An element, a literal and a loop that adds
to its list. -/
theorem lists_shared_sequences_sharing :
    let visit := Dialogue.ofRequests [.interpret "main" sharing]
    let m := Live.machine (Chronicled.hold obliging.conduct unreachedDepth visit (.fresh .empty))
    let p := Program.after noFiles [.machine "a" false]
    let engine := obliging.conduct.host.engine 1
    (m.shown? "main" "all" = some ("[\"[1, 2, 3, 4, 10, 20, 30, 40, box]\", " ++
        "[1, 2, 3, 4, 10, 20, 30, 40, instance of Box, 0], [1, 2, 3, 4], 1, 0, 1, 0, 10]") ∧
      ∃ recent x, m.host.past = recent ++ [x] ∧ x.machine.heap.lists.size = 1 ∧
        (m.heap.list 0).toList = (x.machine.heap.list 0).toList ++ added 0 m.host.past ∧
        (added 0 m.host.past).length = 8 ∧ x.machine.Sequences) ∧
    (∃ j, p.job? (.on "a" (.interpret sharing)) = some j ∧
      (p.step (.on "a" (.interpret sharing))).2 =
        p.leave j.name (plain (Live.machine (Chronicled.work p j)))) ∧
    (∃ r, ElementAt #[.bool true] (.number 0) r ∧
      (eval engine (.subscript default (.variable default "xs") (.number default 0))).run.run
        holding.2 holding.1 = .ok (r.mapError (⟨·, []⟩), holding.2) holding.1) ∧
    (∃ o id, (eval engine (.list default [.null default])).run.run holding.2 holding.1 =
        .ok (.ok (.list id), holding.2) o ∧ 1 ≤ id ∧ id < o.heap.lists.size ∧
        (o.heap.list id).toList = [.null]) ∧
    ∃ k o, Turns "x" (exec engine doubling) [.bool true] holding.2 holding.1 k o ∧
      (exec engine (.forLoop "x" (.variable default "xs") doubling)).run.run holding.2 holding.1 =
        .ok (.ok .normal, k) o := by
  obtain ⟨dialogues, fresh, steps, -, sequences, -, elements, literals, loops⟩ :=
    lists_shared_sequences
  refine ⟨?_, ?_, ?_, ?_, ?_⟩
  · obtain ⟨-, sequenced, -⟩ := dialogues obliging.conduct unreachedDepth
      (.ofRequests [.interpret "main" sharing]) (.fresh .empty) (fresh .empty)
    have ran : let m := Live.machine (Chronicled.hold obliging.conduct unreachedDepth
        (.ofRequests [.interpret "main" sharing]) (.fresh .empty))
      m.shown? "main" "all" = some ("[\"[1, 2, 3, 4, 10, 20, 30, 40, box]\", " ++
        "[1, 2, 3, 4, 10, 20, 30, 40, instance of Box, 0], [1, 2, 3, 4], 1, 0, 1, 0, 10]") ∧
      m.host.past.getLast?.map (·.machine.heap.lists.size) = some 1 ∧
      (added 0 m.host.past).length = 8 := by decide +kernel
    obtain ⟨shown, first, length⟩ := ran
    obtain ⟨x, last, size⟩ := Option.map_eq_some_iff.mp first
    obtain ⟨recent, whole⟩ := List.getLast?_eq_some_iff.mp last
    obtain ⟨-, since⟩ := sequenced.parts recent x [] whole
    refine ⟨shown, recent, x, whole, size, ?_, length, sequenced.moments x ?_⟩
    · rw [whole]
      exact (since 0 (by rw [size]; exact Nat.one_pos)).2
    · rw [whole]
      exact List.mem_append_right recent List.mem_cons_self
  · have there :
        ((Program.after noFiles [.machine "a" false]).machines.get? "a").isSome = true := by
      decide +kernel
    obtain ⟨j, job⟩ := Program.exists_job?_interpret there sharing
    exact ⟨j, job, steps noFiles _ _ j job⟩
  · have core : holding.1.HasCore := fun c => by cases c <;> rfl
    exact elements obliging.conduct.host 0 (.variable default "xs") (.number default 0) holding.2
      holding.2 holding.2 holding.1 holding.1 holding.1 0 (.number 0) default rfl rfl
      (sequences holding.1 core) (by decide)
  · obtain ⟨o, id, made, new, there, content, -⟩ := literals (obliging.conduct.host.engine 1)
      [.null default] holding.2 holding.2 holding.1 holding.1 [.null] default rfl
    exact ⟨o, id, made, new, there, content⟩
  · obtain ⟨k, o, turns, ran⟩ | ⟨before, v, rest, k, o, whole, turns, ends⟩ :=
      loops (obliging.conduct.host.engine 1) "x" (.variable default "xs") doubling holding.2
        holding.2 holding.1 holding.1 0 rfl
    · exact ⟨k, o, turns, ran⟩
    · have alone : before = [] := by
        have length := congrArg List.length whole
        rw [List.length_append, List.length_cons] at length
        have none := (Nat.succ.inj length).symm
        exact List.length_eq_zero_iff.mp (Nat.eq_zero_of_add_eq_zero_right none)
      subst alone
      cases whole
      cases turns
      have turn : (Script.inScope [("x", .bool true)]
          (exec (obliging.conduct.host.engine 1) doubling)).run.run holding.2 holding.1 =
            .ok (.ok .normal, holding.2) _ := rfl
      rw [turn] at ends
      cases ends

end ScriptHost
