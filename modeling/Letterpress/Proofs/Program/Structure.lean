import Letterpress.Proofs.Program.Balance
import Letterpress.Proofs.Program.Patching

/-!
The shape of generated code. The nodes of a template stand behind each other or inside each
other, and so do the stretches that their jumps span: every stretch is entered at its start,
and left at its end. This is said of addresses in the whole code, so that it holds whatever
follows. The only way back is that of a loop, from its end to its iteration.
-/

namespace Letterpress

def Instruction.IsPlain : Instruction → Prop
  | .text _ => True
  | .emit _ => True
  | _ => False

structure Loop (code : List Instruction) (opener closing : Nat) : Prop where
  opens : ∃ names iterable, code[opener]? = some (.loopStart names iterable)
  iterates : code[opener + 1]? = some (.iterate (closing + 1))
  repeats : code[closing]? = some (.jump (opener + 1))
  holds : opener + 1 < closing

/-- What jumps span: a loop from its iteration on, what a condition skips, and what the part
before an `else` skips at its end. -/
inductive Range (code : List Instruction) (opener : Nat) : Nat → Nat → Prop
  | loop {names : List String} {iterable : Code} {stop : Nat}
      (opens : code[opener]? = some (.loopStart names iterable))
      (iterates : code[opener + 1]? = some (.iterate stop)) : Range code opener (opener + 1) stop
  | yes {test : Code} {stop : Nat} (opens : code[opener]? = some (.jumpIfFalse test stop)) :
      Range code opener (opener + 1) stop
  | no {test : Code} {middle stop : Nat}
      (opens : code[opener]? = some (.jumpIfFalse test (middle + 1)))
      (skips : code[middle]? = some (.jump stop)) (ahead : middle < stop) :
      Range code opener (middle + 1) stop

/-- Code from an address to another as nodes make it. -/
inductive Structured (code : List Instruction) : Nat → Nat → Prop
  | nothing {start : Nat} : Structured code start start
  | both {start middle stop : Nat} (first : Structured code start middle)
      (second : Structured code middle stop) : Structured code start stop
  | plain {start : Nat} {instruction : Instruction} (stands : code[start]? = some instruction)
      (straight : instruction.IsPlain) : Structured code start (start + 1)
  | condition {start stop : Nat} {test : Code}
      (stands : code[start]? = some (.jumpIfFalse test stop))
      (yes : Structured code (start + 1) stop) : Structured code start stop
  | choice {start middle stop : Nat} {test : Code}
      (stands : code[start]? = some (.jumpIfFalse test (middle + 1)))
      (yes : Structured code (start + 1) middle) (skips : code[middle]? = some (.jump stop))
      (no : Structured code (middle + 1) stop) : Structured code start stop
  | loop {start closing : Nat} (whole : Loop code start closing)
      (body : Structured code (start + 2) closing) : Structured code start (closing + 1)

/-- Two ranges are disjoint or one inside the other. -/
def Apart (start stop first last : Nat) : Prop :=
  stop ≤ first ∨ last ≤ start ∨ start ≤ first ∧ last ≤ stop ∨ first ≤ start ∧ stop ≤ last

/-- Code in which every jump is that of a condition, of the part before an `else`, or of a
loop, and in which these are disjoint or inside each other. -/
structure WellStructured (code : List Instruction) : Prop where
  targets : ∀ (address : Nat) (instruction : Instruction) target,
    code[address]? = some instruction → instruction.target? = some target →
      target ≤ code.length
  openings : ∀ opener names iterable, code[opener]? = some (.loopStart names iterable) →
    ∃ closing, Loop code opener closing
  iterations : ∀ address target, code[address]? = some (.iterate target) →
    ∃ opener closing, Loop code opener closing ∧ address = opener + 1 ∧ target = closing + 1
  backward : ∀ (address : Nat) (instruction : Instruction) target,
    code[address]? = some instruction → instruction.target? = some target → target ≤ address →
      ∃ opener, Loop code opener address ∧ instruction = .jump target ∧ target = opener + 1
  ranges : ∀ opener start stop, Range code opener start stop →
    opener < start ∧ start ≤ stop ∧ stop ≤ code.length
  nested : ∀ opener start stop other first last, Range code opener start stop →
    Range code other first last → Apart start stop first last
  entered : ∀ opener closing, Loop code opener closing →
    ∀ (address : Nat) (instruction : Instruction) target, code[address]? = some instruction →
      instruction.target? = some target → opener < target → target ≤ closing →
        opener < address ∧ address ≤ closing

section Structured

variable {code : List Instruction} {start stop : Nat}

theorem Structured.le (structured : Structured code start stop) : start ≤ stop := by
  induction structured with
  | nothing => exact Nat.le_refl _
  | both first second ordered follows => exact Nat.le_trans ordered follows
  | plain stands straight => exact Nat.le_succ _
  | condition stands yes ordered => omega
  | choice stands yes skips no ordered follows => omega
  | loop whole body ordered => omega

theorem target_of_plain {instruction : Instruction} (straight : instruction.IsPlain) :
    instruction.target? = none := by
  cases instruction with
  | text content => rfl
  | emit code => rfl
  | _ => cases straight

inductive AtAddress (code : List Instruction) (address : Nat) : Prop
  | plain {instruction : Instruction} (stands : code[address]? = some instruction)
      (straight : instruction.IsPlain)
  | condition {test : Code} {target : Nat}
      (stands : code[address]? = some (.jumpIfFalse test target)) (ahead : address < target)
  | skip {target : Nat} (stands : code[address]? = some (.jump target)) (ahead : address < target)
  | opener {closing : Nat} (whole : Loop code address closing)
  | iteration {opener closing : Nat} (whole : Loop code opener closing)
      (place : address = opener + 1)
  | closing {opener : Nat} (whole : Loop code opener address)

theorem Structured.site (structured : Structured code start stop) {address : Nat}
    (behind : start ≤ address) (before : address < stop) : AtAddress code address := by
  induction structured with
  | nothing => omega
  | @both start middle stop first second in_first in_second =>
      rcases Nat.lt_or_ge address middle with early | late
      · exact in_first behind early
      · exact in_second late before
  | @plain start instruction stands straight =>
      obtain rfl : address = start := by omega
      exact .plain stands straight
  | @condition start stop test stands yes inside =>
      rcases (by omega : address = start ∨ start + 1 ≤ address) with rfl | later
      · exact .condition stands before
      · exact inside later before
  | @choice start middle stop test stands yes skips no in_yes in_no =>
      have first := yes.le
      have second := no.le
      rcases (by omega : address = start ∨ start + 1 ≤ address ∧ address < middle ∨
        address = middle ∨ middle + 1 ≤ address) with rfl | ⟨later, early⟩ | rfl | late
      · exact .condition stands (by omega)
      · exact in_yes later early
      · exact .skip skips second
      · exact in_no late before
  | @loop start closing whole body inside =>
      rcases (by omega : address = start ∨ address = start + 1 ∨
        start + 2 ≤ address ∧ address < closing ∨ address = closing) with
        rfl | rfl | ⟨later, early⟩ | rfl
      · exact .opener whole
      · exact .iteration whole rfl
      · exact inside later early
      · exact .closing whole

/-- Control that enters a stretch stays in it, or leaves it at its end. -/
theorem Structured.within (structured : Structured code start stop) {address target : Nat}
    {instruction : Instruction} (behind : start ≤ address) (before : address < stop)
    (stands : code[address]? = some instruction) (jumps : instruction.target? = some target) :
    start ≤ target ∧ target ≤ stop := by
  have ordered := structured.le
  induction structured with
  | nothing => omega
  | @both start middle stop first second in_first in_second =>
      have early := first.le
      have late := second.le
      rcases Nat.lt_or_ge address middle with inside | inside
      · have bounds := in_first behind inside early
        omega
      · have bounds := in_second inside before late
        omega
  | @plain start other here straight =>
      obtain rfl : address = start := by omega
      cases here.symm.trans stands
      cases (target_of_plain straight).symm.trans jumps
  | @condition start stop test here yes inside =>
      rcases (by omega : address = start ∨ start + 1 ≤ address) with rfl | later
      · cases here.symm.trans stands
        cases jumps
        omega
      · have bounds := inside later before yes.le
        omega
  | @choice start middle stop test here yes skips no in_yes in_no =>
      have first := yes.le
      have second := no.le
      rcases (by omega : address = start ∨ start + 1 ≤ address ∧ address < middle ∨
        address = middle ∨ middle + 1 ≤ address) with rfl | ⟨later, early⟩ | rfl | late
      · cases here.symm.trans stands
        cases jumps
        omega
      · have bounds := in_yes later early first
        omega
      · cases skips.symm.trans stands
        cases jumps
        omega
      · have bounds := in_no late before second
        omega
  | @loop start closing whole body inside =>
      obtain ⟨⟨names, iterable, opens⟩, iterates, repeats, holds⟩ := whole
      rcases (by omega : address = start ∨ address = start + 1 ∨
        start + 2 ≤ address ∧ address < closing ∨ address = closing) with
        rfl | rfl | ⟨later, early⟩ | rfl
      · cases opens.symm.trans stands
        cases jumps
      · cases iterates.symm.trans stands
        cases jumps
        omega
      · have bounds := inside later early body.le
        omega
      · cases repeats.symm.trans stands
        cases jumps
        omega

section Ranges

variable {opener first last middle closing : Nat} {test : Code}

def Instruction.Opens : Instruction → Prop
  | .jumpIfFalse _ _ => True
  | .loopStart _ _ => True
  | _ => False

theorem not_opens_of_plain {instruction : Instruction} (straight : instruction.IsPlain) :
    ¬ instruction.Opens := by
  cases instruction with
  | text content => exact id
  | emit code => exact id
  | _ => cases straight

theorem Range.opens (range : Range code opener first last) {instruction : Instruction}
    (stands : code[opener]? = some instruction) : instruction.Opens := by
  cases range with
  | loop opens | yes opens | no opens =>
      cases opens.symm.trans stands
      trivial

theorem ranges_of_loop (whole : Loop code opener closing)
    (range : Range code opener first last) : first = opener + 1 ∧ last = closing + 1 := by
  obtain ⟨⟨names, iterable, opens⟩, iterates, -, -⟩ := whole
  cases range with
  | loop _ twin =>
      cases iterates.symm.trans twin
      exact ⟨rfl, rfl⟩
  | yes twin | no twin => cases opens.symm.trans twin

theorem ranges_of_choice (opens : code[opener]? = some (.jumpIfFalse test (middle + 1)))
    (skips : code[middle]? = some (.jump stop)) (range : Range code opener first last) :
    first = opener + 1 ∧ last = middle + 1 ∨ first = middle + 1 ∧ last = stop := by
  cases range with
  | loop twin => cases opens.symm.trans twin
  | yes twin =>
      cases opens.symm.trans twin
      exact .inl ⟨rfl, rfl⟩
  | no twin other ahead =>
      cases opens.symm.trans twin
      cases skips.symm.trans other
      exact .inr ⟨rfl, rfl⟩

/-- A condition without an `else` may end with a jump of its own nodes, which skips nothing. -/
theorem ranges_of_condition (opens : code[opener]? = some (.jumpIfFalse test stop))
    (yes : Structured code (opener + 1) stop) (range : Range code opener first last) :
    (first = opener + 1 ∨ first = stop) ∧ last = stop := by
  cases range with
  | loop twin => cases opens.symm.trans twin
  | yes twin =>
      cases opens.symm.trans twin
      exact ⟨.inl rfl, rfl⟩
  | @no test middle last twin skips ahead =>
      cases opens.symm.trans twin
      have ordered := yes.le
      rcases (by omega : middle = opener ∨ opener + 1 ≤ middle) with rfl | inside
      · cases opens.symm.trans skips
      · have bounds := yes.within inside (Nat.lt_succ_self middle) skips rfl
        exact ⟨.inr rfl, by omega⟩

theorem Structured.ranges_within (structured : Structured code start stop)
    (behind : start ≤ opener) (before : opener < stop) (range : Range code opener first last) :
    opener < first ∧ first ≤ last ∧ last ≤ stop := by
  induction structured with
  | nothing => omega
  | @both start middle stop front back in_front in_back =>
      have late := back.le
      rcases Nat.lt_or_ge opener middle with inside | inside
      · have bounds := in_front behind inside
        omega
      · exact in_back inside before
  | @plain start instruction stands straight =>
      obtain rfl : opener = start := by omega
      exact False.elim (not_opens_of_plain straight (range.opens stands))
  | @condition start stop test opens yes inside =>
      have ordered := yes.le
      rcases (by omega : opener = start ∨ start + 1 ≤ opener) with rfl | later
      · have bounds := ranges_of_condition opens yes range
        omega
      · exact inside later before
  | @choice start middle stop test opens yes skips no in_yes in_no =>
      have front := yes.le
      have back := no.le
      rcases (by omega : opener = start ∨ start + 1 ≤ opener ∧ opener < middle ∨
        opener = middle ∨ middle + 1 ≤ opener) with rfl | ⟨later, early⟩ | rfl | late
      · have bounds := ranges_of_choice opens skips range
        omega
      · have bounds := in_yes later early
        omega
      · cases range.opens skips
      · exact in_no late before
  | @loop start closing whole body inside =>
      have holds := whole.holds
      rcases (by omega : opener = start ∨ opener = start + 1 ∨
        start + 2 ≤ opener ∧ opener < closing ∨ opener = closing) with
        rfl | rfl | ⟨later, early⟩ | rfl
      · have bounds := ranges_of_loop whole range
        omega
      · cases range.opens whole.iterates
      · have bounds := inside later early
        omega
      · cases range.opens whole.repeats

/-- What an opener in a loop spans: the loop, or part of its body. -/
theorem range_in_loop (whole : Loop code start closing)
    (body : Structured code (start + 2) closing) (behind : start ≤ opener)
    (before : opener < closing + 1) (range : Range code opener first last) :
    opener = start ∧ first = start + 1 ∧ last = closing + 1 ∨
      start + 2 ≤ opener ∧ opener < closing ∧ opener < first ∧ first ≤ last ∧ last ≤ closing := by
  have holds := whole.holds
  rcases (by omega : opener = start ∨ opener = start + 1 ∨
    start + 2 ≤ opener ∧ opener < closing ∨ opener = closing) with
    rfl | rfl | ⟨later, early⟩ | rfl
  · exact .inl ⟨rfl, ranges_of_loop whole range⟩
  · cases range.opens whole.iterates
  · exact .inr ⟨later, early, body.ranges_within later early range⟩
  · cases range.opens whole.repeats

theorem range_in_choice (opens : code[start]? = some (.jumpIfFalse test (middle + 1)))
    (yes : Structured code (start + 1) middle) (skips : code[middle]? = some (.jump stop))
    (no : Structured code (middle + 1) stop) (behind : start ≤ opener) (before : opener < stop)
    (range : Range code opener first last) :
    (opener = start ∧
      (first = start + 1 ∧ last = middle + 1 ∨ first = middle + 1 ∧ last = stop)) ∨
      (start + 1 ≤ opener ∧ opener < middle ∧ opener < first ∧ first ≤ last ∧ last ≤ middle) ∨
      middle + 1 ≤ opener ∧ opener < first ∧ first ≤ last ∧ last ≤ stop := by
  have front := yes.le
  rcases (by omega : opener = start ∨ start + 1 ≤ opener ∧ opener < middle ∨
    opener = middle ∨ middle + 1 ≤ opener) with rfl | ⟨later, early⟩ | rfl | late
  · exact .inl ⟨rfl, ranges_of_choice opens skips range⟩
  · exact .inr (.inl ⟨later, early, yes.ranges_within later early range⟩)
  · cases range.opens skips
  · exact .inr (.inr ⟨late, no.ranges_within late before range⟩)

theorem Structured.ranges_apart (structured : Structured code start stop) {other low high : Nat}
    (behind : start ≤ opener) (before : opener < stop) (also_behind : start ≤ other)
    (also_before : other < stop) (range : Range code opener first last)
    (again : Range code other low high) : Apart first last low high := by
  induction structured with
  | nothing => omega
  | @both start middle stop front back in_front in_back =>
      rcases Nat.lt_or_ge opener middle with early | late
      · have bounds := front.ranges_within behind early range
        rcases Nat.lt_or_ge other middle with also_early | also_late
        · exact in_front behind early also_behind also_early
        · have also_bounds := back.ranges_within also_late also_before again
          exact .inl (by omega)
      · have bounds := back.ranges_within late before range
        rcases Nat.lt_or_ge other middle with also_early | also_late
        · have also_bounds := front.ranges_within also_behind also_early again
          exact .inr (.inl (by omega))
        · exact in_back late before also_late also_before
  | @plain start instruction stands straight =>
      obtain rfl : opener = start := by omega
      exact False.elim (not_opens_of_plain straight (range.opens stands))
  | @condition start stop test opens yes inside =>
      have ordered := yes.le
      have place {opener first last : Nat} (behind : start ≤ opener) (before : opener < stop)
          (range : Range code opener first last) :
          (opener = start ∧ (first = start + 1 ∨ first = stop) ∧ last = stop) ∨
            start + 1 ≤ opener ∧ opener < first ∧ first ≤ last ∧ last ≤ stop := by
        rcases (by omega : opener = start ∨ start + 1 ≤ opener) with rfl | later
        · exact .inl ⟨rfl, ranges_of_condition opens yes range⟩
        · exact .inr ⟨later, yes.ranges_within later before range⟩
      have here := place behind before range
      rcases place also_behind also_before again with own | within
      · unfold Apart
        omega
      · rcases here with own | also_within
        · unfold Apart
          omega
        · exact inside also_within.1 before within.1 also_before
  | @choice start middle stop test opens yes skips no in_yes in_no =>
      have place := range_in_choice opens yes skips no also_behind also_before again
      have ordered := yes.le
      have follows := no.le
      rcases range_in_choice opens yes skips no behind before range with own | first | second
      · unfold Apart
        omega
      · rcases place with own | also_first | also_second
        · unfold Apart
          omega
        · exact in_yes first.1 first.2.1 also_first.1 also_first.2.1
        · exact .inl (by omega)
      · rcases place with own | also_first | also_second
        · unfold Apart
          omega
        · exact .inr (.inl (by omega))
        · exact in_no second.1 before also_second.1 also_before
  | @loop start closing whole body inside =>
      have place := range_in_loop whole body also_behind also_before again
      rcases range_in_loop whole body behind before range with own | within
      · unfold Apart
        omega
      · rcases place with own | also_within
        · unfold Apart
          omega
        · exact inside within.1 within.2.1 also_within.1 also_within.2.1

theorem Loop.range (whole : Loop code opener closing) :
    Range code opener (opener + 1) (closing + 1) :=
  have ⟨_, _, opens⟩ := whole.opens
  .loop opens whole.iterates

theorem Loop.not_condition (whole : Loop code opener closing) {target : Nat} :
    code[opener]? ≠ some (.jumpIfFalse test target) := by
  intro stands
  obtain ⟨names, iterable, opens⟩ := whole.opens
  cases opens.symm.trans stands

theorem Loop.unique (whole : Loop code opener closing) {other : Nat}
    (again : Loop code opener other) : other = closing := by
  have same := (ranges_of_loop whole again.range).2
  omega

/-- Nothing outside of a loop jumps behind its start and before its end. -/
theorem Structured.not_entered (structured : Structured code start stop) {address target : Nat}
    {instruction : Instruction} (behind : start ≤ address) (before : address < stop)
    (opener_behind : start ≤ opener) (opener_before : opener < stop)
    (whole : Loop code opener closing) (stands : code[address]? = some instruction)
    (jumps : instruction.target? = some target) (after : opener < target)
    (early : target ≤ closing) : opener < address ∧ address ≤ closing := by
  induction structured with
  | nothing => omega
  | @both start middle stop front back in_front in_back =>
      rcases Nat.lt_or_ge opener middle with first | second
      · have bounds := front.ranges_within opener_behind first whole.range
        rcases Nat.lt_or_ge address middle with here | there
        · exact in_front behind here opener_behind first
        · have beyond := back.within there before stands jumps
          omega
      · rcases Nat.lt_or_ge address middle with here | there
        · have short := front.within behind here stands jumps
          omega
        · exact in_back there before second opener_before
  | @plain start other here straight =>
      obtain rfl : opener = start := by omega
      exact False.elim (not_opens_of_plain straight (whole.range.opens here))
  | @condition start stop test here yes inside =>
      rcases (by omega : opener = start ∨ start + 1 ≤ opener) with rfl | later
      · exact absurd here whole.not_condition
      · have bounds := yes.ranges_within later opener_before whole.range
        rcases (by omega : address = start ∨ start + 1 ≤ address) with rfl | within
        · cases here.symm.trans stands
          cases jumps
          omega
        · exact inside within before later opener_before
  | @choice start middle stop test here yes skips no in_yes in_no =>
      have ordered := yes.le
      have place := range_in_choice here yes skips no opener_behind opener_before whole.range
      rcases (by omega : address = start ∨ start + 1 ≤ address ∧ address < middle ∨
        address = middle ∨ middle + 1 ≤ address) with rfl | ⟨later, within⟩ | rfl | late
      · cases here.symm.trans stands
        cases jumps
        rcases place with ⟨rfl, -⟩ | first | second
        · exact absurd here whole.not_condition
        · omega
        · omega
      · have bounds := yes.within later within stands jumps
        rcases place with ⟨rfl, -⟩ | first | second
        · exact absurd here whole.not_condition
        · exact in_yes later within first.1 first.2.1
        · omega
      · cases skips.symm.trans stands
        cases jumps
        rcases place with ⟨rfl, -⟩ | first | second
        · exact absurd here whole.not_condition
        · omega
        · omega
      · have bounds := no.within late before stands jumps
        rcases place with ⟨rfl, -⟩ | first | second
        · exact absurd here whole.not_condition
        · omega
        · exact in_no late before second.1 opener_before
  | @loop start last outer body inside =>
      rcases range_in_loop outer body opener_behind opener_before whole.range with
        ⟨rfl, -, -⟩ | within
      · obtain rfl := outer.unique whole
        obtain ⟨names, iterable, opens⟩ := outer.opens
        rcases Nat.eq_or_lt_of_le behind with rfl | later
        · cases opens.symm.trans stands
          cases jumps
        · omega
      · rcases (by omega : address = start ∨ address = start + 1 ∨
          start + 2 ≤ address ∧ address < last ∨ address = last) with
          rfl | rfl | ⟨later, short⟩ | rfl
        · obtain ⟨names, iterable, opens⟩ := outer.opens
          cases opens.symm.trans stands
          cases jumps
        · cases outer.iterates.symm.trans stands
          cases jumps
          omega
        · exact inside later short within.1 within.2.1
        · cases outer.repeats.symm.trans stands
          cases jumps
          omega

end Ranges

theorem inside_of_stands {address : Nat} {instruction : Instruction}
    (stands : code[address]? = some instruction) : address < code.length :=
  (List.getElem?_eq_some_iff.mp stands).1

theorem Range.inside {opener first last : Nat} (range : Range code opener first last) :
    opener < code.length := by
  cases range with
  | loop opens | yes opens | no opens => exact inside_of_stands opens

theorem Structured.well (structured : Structured code 0 code.length) : WellStructured code where
  targets address instruction target stands jumps :=
    (structured.within (Nat.zero_le address) (inside_of_stands stands) stands jumps).2
  openings opener names iterable stands := by
    cases structured.site (Nat.zero_le opener) (inside_of_stands stands) with
    | plain twin straight =>
        cases stands.symm.trans twin
        cases straight
    | condition twin ahead => cases stands.symm.trans twin
    | skip twin ahead => cases stands.symm.trans twin
    | opener whole => exact ⟨_, whole⟩
    | iteration whole place =>
        subst place
        cases stands.symm.trans whole.iterates
    | closing whole => cases stands.symm.trans whole.repeats
  iterations address target stands := by
    cases structured.site (Nat.zero_le address) (inside_of_stands stands) with
    | plain twin straight =>
        cases stands.symm.trans twin
        cases straight
    | condition twin ahead => cases stands.symm.trans twin
    | skip twin ahead => cases stands.symm.trans twin
    | opener whole =>
        obtain ⟨names, iterable, opens⟩ := whole.opens
        cases stands.symm.trans opens
    | iteration whole place =>
        subst place
        cases stands.symm.trans whole.iterates
        exact ⟨_, _, whole, rfl, rfl⟩
    | closing whole => cases stands.symm.trans whole.repeats
  backward address instruction target stands jumps back := by
    cases structured.site (Nat.zero_le address) (inside_of_stands stands) with
    | plain twin straight =>
        cases stands.symm.trans twin
        cases (target_of_plain straight).symm.trans jumps
    | condition twin ahead =>
        cases stands.symm.trans twin
        cases jumps
        omega
    | skip twin ahead =>
        cases stands.symm.trans twin
        cases jumps
        omega
    | opener whole =>
        obtain ⟨names, iterable, opens⟩ := whole.opens
        cases stands.symm.trans opens
        cases jumps
    | iteration whole place =>
        subst place
        have holds := whole.holds
        cases stands.symm.trans whole.iterates
        cases jumps
        omega
    | closing whole =>
        cases stands.symm.trans whole.repeats
        cases jumps
        exact ⟨_, whole, rfl, rfl⟩
  ranges opener first last range :=
    structured.ranges_within (Nat.zero_le opener) range.inside range
  nested opener first last other low high range again :=
    structured.ranges_apart (Nat.zero_le opener) range.inside (Nat.zero_le other) again.inside
      range again
  entered opener closing whole address instruction target stands jumps after early :=
    structured.not_entered (Nat.zero_le address) (inside_of_stands stands) (Nat.zero_le opener)
      whole.range.inside whole stands jumps after early

end Structured

section Generated

variable {whole : List Instruction} {start : Nat}

mutual

theorem node_structured {owner : String} {start : Nat} (node : Node)
    {instructions : List Instruction} (emitted : node.emitAt owner start = .ok instructions)
    (placed : Placed whole start instructions) :
    Structured whole start (start + instructions.length) := by
  cases node with
  | text content =>
      cases emitted
      exact .plain (placed_head placed) trivial
  | output source offset =>
      simp only [Node.emitAt, bind_eq_ok] at emitted
      obtain ⟨code, -, same⟩ := emitted
      cases same
      exact .plain (placed_head placed) trivial
  | block name body => exact nodes_structured body emitted placed
  | ifThen test offset yes =>
      simp only [Node.emitAt, bind_eq_ok] at emitted
      obtain ⟨code, -, first, first_emitted, same⟩ := emitted
      cases same
      have inside := nodes_structured yes first_emitted (placed_tail placed)
      rw [List.length_cons, Nat.add_comm first.length, ← Nat.add_assoc]
      exact .condition (placed_head placed) inside
  | ifElse test offset yes no =>
      simp only [Node.emitAt, bind_eq_ok] at emitted
      obtain ⟨code, -, first, first_emitted, second, second_emitted, same⟩ := emitted
      cases same
      have behind := placed_tail placed
      have inside := nodes_structured yes first_emitted (placed_front behind)
      have skip := placed_back behind
      have other := nodes_structured no second_emitted (placed_tail skip)
      have stop : start + (.jumpIfFalse code (start + 1 + first.length + 1) ::
          (first ++ .jump (start + 1 + first.length + 1 + second.length) ::
            second) : List Instruction).length =
          start + 1 + first.length + 1 + second.length := by
        simp only [List.length_cons, List.length_append]
        omega
      rw [stop]
      exact .choice (placed_head placed) inside (placed_head skip) other
  | loop source offset body =>
      simp only [Node.emitAt, bind_eq_ok] at emitted
      obtain ⟨header, -, inner, inner_emitted, same⟩ := emitted
      cases same
      have iteration := placed_tail placed
      have behind := placed_tail iteration
      have inside := nodes_structured body inner_emitted (placed_front behind)
      have stop : start + (.loopStart header.names header.iterable.lower ::
          .iterate (start + 2 + inner.length + 1) ::
            (inner ++ [.jump (start + 1)]) : List Instruction).length =
          start + 2 + inner.length + 1 := by
        simp only [List.length_cons, List.length_append, List.length_nil]
        omega
      rw [stop]
      have loop : Loop whole start (start + 2 + inner.length) :=
        ⟨⟨_, _, placed_head placed⟩, placed_head iteration, placed_head (placed_back behind),
          by omega⟩
      exact .loop loop inside

theorem nodes_structured {owner : String} {start : Nat} (nodes : List Node)
    {instructions : List Instruction} (emitted : emitAllAt owner start nodes = .ok instructions)
    (placed : Placed whole start instructions) :
    Structured whole start (start + instructions.length) := by
  cases nodes with
  | nil =>
      cases emitted
      exact .nothing
  | cons node rest =>
      simp only [emitAllAt, bind_eq_ok] at emitted
      obtain ⟨first, first_emitted, others, others_emitted, same⟩ := emitted
      cases same
      rw [List.length_append, ← Nat.add_assoc]
      exact .both (node_structured node first_emitted (placed_front placed))
        (nodes_structured rest others_emitted (placed_back placed))

end

theorem owned_structured (nodes : List OwnedNode) {instructions : List Instruction}
    (emitted : emitOwnedAt start nodes = .ok instructions)
    (placed : Placed whole start instructions) :
    Structured whole start (start + instructions.length) := by
  induction nodes generalizing start instructions with
  | nil =>
      cases emitted
      exact .nothing
  | cons owned rest later =>
      simp only [emitOwnedAt, bind_eq_ok] at emitted
      obtain ⟨first, first_emitted, others, others_emitted, same⟩ := emitted
      cases same
      rw [List.length_append, ← Nat.add_assoc]
      exact .both (node_structured owned.node first_emitted (placed_front placed))
        (later others_emitted (placed_back placed))

end Generated

/-- What lies beyond the end of code is no target in it. -/
theorem WellStructured.unmarked {code : List Instruction} (well : WellStructured code) {mark : Nat}
    (beyond : code.length < mark) {instruction : Instruction} (member : instruction ∈ code) :
    instruction.target? ≠ some mark := by
  intro jumps
  obtain ⟨address, stands⟩ := List.mem_iff_getElem?.mp member
  have within := well.targets address instruction mark stands jumps
  omega

theorem Code.Balanced.unmarked {code : Code} (balanced : code.Balanced) {mark : Nat}
    (beyond : code.length < mark) {op : Op} (member : op ∈ code) : op.target? ≠ some mark := by
  intro jumps
  obtain ⟨address, stands⟩ := List.mem_iff_getElem?.mp member
  have within := balanced.forward address op mark stands jumps
  omega

/-- Generated code is structured, in its instructions and in their operations. It is what is
written with any mark for the targets that are still to come, and where the mark is beyond the
end, as the largest word is, none is left. -/
theorem generated_code_structured {template : Template} {now : Instant} {program : Program}
    (generated : template.generate now = .ok program) :
    WellStructured program.instructions ∧
      (∀ instruction ∈ program.instructions, ∀ code ∈ instruction.code?, code.Balanced) ∧
      (∀ expression : Expr, expression.lower.Balanced) ∧
      ∀ mark, template.write mark now = .ok program ∧
        (program.instructions.length < mark →
          ∀ instruction ∈ program.instructions, instruction.target? ≠ some mark) ∧
        ∀ instruction ∈ program.instructions, ∀ code ∈ instruction.code?, code.length < mark →
          ∀ op ∈ code, op.target? ≠ some mark := by
  obtain ⟨-, -, -, emitted⟩ := generate_eq_ok generated
  have structured := owned_structured template.resolve emitted placed_whole
  rw [Nat.zero_add] at structured
  have balanced : ∀ instruction ∈ program.instructions, ∀ code ∈ instruction.code?,
      code.Balanced := by
    intro instruction member code here
    obtain ⟨expression, -, rfl⟩ := generated_codes_written generated instruction member code here
    exact expression.lowered_balanced
  refine ⟨structured.well, balanced, Expr.lowered_balanced, fun mark => ⟨?_, ?_, ?_⟩⟩
  · rw [template.write_generates, generated]
  · exact fun beyond instruction member => structured.well.unmarked beyond member
  · exact fun instruction member code here beyond op inside =>
      (balanced instruction member code here).unmarked beyond inside

def knottedRows : Template :=
  ⟨⟨"rows.html",
    [.loop "row of rows" 0
      [.loop "cell of row" 20
        [.ifThen "cell and (row or not cell)" 40 [.ifElse "cell" 60 [.output "cell" 70] []]],
        .ifElse "row" 80 [.text ","] [.text ";"]]]⟩, []⟩

theorem knotted_rows_structured :
    ∃ program, knottedRows.generate (.ofSeconds 0) = .ok program ∧
      WellStructured program.instructions := by
  obtain ⟨program, generated⟩ :=
    exists_ok_of_isOk (show (knottedRows.generate (.ofSeconds 0)).isOk = true by decide +kernel)
  exact ⟨program, generated, (generated_code_structured generated).1⟩

end Letterpress
