import ScriptGlue.Disk.Basic

/-!
# A file system that refuses no write

A file system as a map from paths to texts, along with all that has been done to it. Texts that are
there can be read, and everything can be written.
-/
namespace ScriptGlue

/-- Something done to a file system. -/
inductive Effect where
  | write (path text : String)
  | makeDir (path : String)
  deriving DecidableEq, Repr

structure FileMap where
  /-- What is at a path, or why nothing can be read there. -/
  text : String → Except DiskProblem String
  /-- What has been done, in order. -/
  effects : List Effect

namespace FileMap

def step (fm : FileMap) : Effect → FileMap
  | .write path text =>
    ⟨fun p => if p = path then .ok text else fm.text p, fm.effects ++ [.write path text]⟩
  | .makeDir path => ⟨fm.text, fm.effects ++ [.makeDir path]⟩

/-- Does several things more, in order. -/
def after (fm : FileMap) (es : List Effect) : FileMap := es.foldl step fm

@[simp] theorem after_nil (fm : FileMap) : fm.after [] = fm := rfl

theorem after_cons (fm : FileMap) (e : Effect) (es : List Effect) :
    fm.after (e :: es) = (fm.step e).after es := rfl

theorem after_append (fm : FileMap) (es fs : List Effect) :
    fm.after (es ++ fs) = (fm.after es).after fs := List.foldl_append

/-- Whether something changes what is at a path. -/
def writesTo (path : String) : Effect → Bool
  | .write p _ => p == path
  | .makeDir _ => false

theorem text_step_of_not_writesTo {path : String} {e : Effect} (fm : FileMap)
    (other : writesTo path e = false) : (fm.step e).text path = fm.text path := by
  cases e with
  | write p t =>
    have differs : path ≠ p := fun same => by simp [writesTo, same] at other
    exact if_neg differs
  | makeDir p => rfl

/-- What nothing writes to stays as it is. -/
theorem text_after_of_not_writesTo {path : String} {es : List Effect} (fm : FileMap)
    (others : ∀ e ∈ es, writesTo path e = false) : (fm.after es).text path = fm.text path := by
  induction es generalizing fm with
  | nil => rfl
  | cons e r ih =>
    rw [after_cons, ih _ fun f member => others f (List.mem_cons_of_mem e member),
      text_step_of_not_writesTo fm (others e List.mem_cons_self)]

/-- The last write to a path decides on its text. -/
theorem text_after_write (fm : FileMap) (before later : List Effect) (path text : String)
    (others : ∀ e ∈ later, writesTo path e = false) :
    (fm.after (before ++ .write path text :: later)).text path = .ok text := by
  rw [after_append, after_cons, text_after_of_not_writesTo _ others]
  exact if_pos rfl

def disk : Disk (StateM FileMap) where
  read path fm := (fm.text path, fm)
  write path text fm := (.ok (), fm.step (.write path text))
  makeDir path fm := (.ok (), fm.step (.makeDir path))

def dirEffects (path : String) : List Effect := if path.isEmpty then [] else [.makeDir path]

theorem makeDirs_disk (path : String) (fm : FileMap) :
    disk.makeDirs path fm = (.ok (), fm.after (dirEffects path)) := by
  rw [Disk.makeDirs, dirEffects]
  split <;> rfl

end FileMap

end ScriptGlue
