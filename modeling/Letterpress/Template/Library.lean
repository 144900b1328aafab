import Letterpress.Template.Parser

/-!
Compiling a template together with everything it extends. A library answers names with
texts, and there are only finitely many texts it can answer with; names may be spelled
in any number of ways. That is enough for the search to end: a text met a second time
asks again for the name it asked for the first time, and that name is on the way.
-/

namespace Letterpress

/-- Sources by name, with a list of all texts that can come out. -/
structure Library where
  load : String → Except TemplateError String
  texts : List String
  mem_texts : ∀ {name text}, load name = .ok text → text ∈ texts

namespace Library

def find? (name : String) : List (String × String) → Option String
  | [] => none
  | (other, text) :: rest => if name = other then some text else find? name rest

theorem mem_of_find? {name text : String} {files : List (String × String)}
    (found : find? name files = some text) : text ∈ files.map Prod.snd := by
  induction files with
  | nil => simp [find?] at found
  | cons file rest ih =>
      obtain ⟨other, held⟩ := file
      by_cases same : name = other
      · simp_all [find?]
      · simp only [find?, same, if_false] at found
        simp [ih found]

def ofFiles (files : List (String × String)) : Library where
  load name := match find? name files with
    | some text => .ok text
    | none => .error (.notFound name)
  texts := files.map Prod.snd
  mem_texts {name text} loaded := by
    split at loaded
    · next held found =>
        injection loaded with same
        exact same ▸ mem_of_find? found
    · cases loaded

end Library

namespace Template

/-- The way from the template that was asked for: names, outermost first, of which the
last is still to be read, and the texts read. What a text extends is on the way. -/
structure Trail where
  names : List String
  read : List String
  closed : ∀ text ∈ read, ∀ target offset,
    (readSource text).parent = some (target, offset) → target ∈ names

def Trail.ofName (name : String) : Trail := ⟨[name], [], by simp⟩

def Trail.extend (trail : Trail) (text target : String) (offset : Nat)
    (found : (readSource text).parent = some (target, offset)) : Trail where
  names := trail.names ++ [target]
  read := text :: trail.read
  closed := by
    intro other member wanted otherOffset extended
    rcases List.mem_cons.mp member with same | member
    · subst same
      rw [found] at extended
      cases extended
      simp
    · exact List.mem_append_left _ (trail.closed other member wanted otherOffset extended)

def Trail.unread (trail : Trail) (library : Library) : Nat :=
  (library.texts.filter fun text => decide (text ∉ trail.read)).length

theorem Trail.unread_extend_lt (trail : Trail) (library : Library)
    {text target : String} {offset : Nat}
    (found : (readSource text).parent = some (target, offset))
    (known : text ∈ library.texts) (fresh : target ∉ trail.names) :
    (trail.extend text target offset found).unread library < trail.unread library := by
  have unreadText : text ∉ trail.read := fun member =>
    fresh (trail.closed text member target offset found)
  simp only [Trail.unread, Trail.extend]
  have narrower : ∀ texts : List String,
      (texts.filter fun other => decide (other ∉ text :: trail.read)).length ≤
        (texts.filter fun other => decide (other ∉ trail.read)).length := by
    intro texts
    induction texts with
    | nil => simp
    | cons other rest ih =>
        by_cases same : other = text <;> by_cases member : other ∈ trail.read <;> simp_all
        all_goals omega
  have strict : ∀ texts : List String, text ∈ texts →
      (texts.filter fun other => decide (other ∉ text :: trail.read)).length <
        (texts.filter fun other => decide (other ∉ trail.read)).length := by
    intro texts
    induction texts with
    | nil => simp
    | cons other rest ih =>
        intro member
        by_cases same : other = text
        · subst same
          have smaller := narrower rest
          clear narrower ih
          simp only [List.filter_cons, List.mem_cons, true_or, not_true_eq_false, decide_false,
            Bool.false_eq_true, if_false, unreadText, not_false_eq_true, decide_true, if_true,
            List.length_cons]
          simp only [List.mem_cons] at smaller
          omega
        · have later : text ∈ rest := by simp_all [eq_comm]
          have smaller := ih later
          by_cases read : other ∈ trail.read <;> simp_all
  exact strict library.texts known

def assemble (name : String) (reading : Reading) (ancestors : List Layer) :
    Except TemplateError Template :=
  match reading.outcome with
  | .ok nodes => .ok ⟨⟨name, nodes⟩, ancestors⟩
  | .error fault => .error (fault.toError name)

/-- Compiles what the file of a given text extends, and then the file itself, whose
name is the last of the trail so far. A fault of the file that comes after its
`extends` directive waits for the ancestors. -/
def compileFrom (library : Library) (trail : Trail) (name : String) :
    Except TemplateError Template :=
  match _loaded : library.load name with
  | .error error => .error error
  | .ok text =>
      match found : (readSource text).parent with
      | none => assemble name (readSource text) []
      | some (target, offset) =>
          if _seen : target ∈ trail.names then
            .error (.directive name (.circular (trail.names ++ [target])) offset)
          else
            match compileFrom library (trail.extend text target offset found) target with
            | .error error => .error error
            | .ok parent => assemble name (readSource text) (parent.page :: parent.ancestors)
termination_by trail.unread library
decreasing_by exact trail.unread_extend_lt library found (library.mem_texts _loaded) _seen

def compile (library : Library) (name : String) : Except TemplateError Template :=
  compileFrom library (Trail.ofName name) name

/-- Compiles tokens cut before under a name of their own; the library is asked only for
what the tokens extend. -/
def parse (library : Library) (name : String) (tokens : List Token) :
    Except TemplateError Template :=
  let reading := readTokens tokens
  match reading.parent with
  | none => assemble name reading []
  | some (target, offset) =>
      if target = name then .error (.directive name (.circular [name, target]) offset)
      else
        match compileFrom library ⟨[name, target], [], by simp⟩ target with
        | .error error => .error error
        | .ok parent => assemble name reading (parent.page :: parent.ancestors)

def compileSource (library : Library) (name source : String) : Except TemplateError Template :=
  parse library name (tokenize source)

end Letterpress.Template
