import DownloadCache.Cache.Adoption
import DownloadCache.Cache.Orphans

/-!
# Runs

What can happen to a site: the operations of its cache, and changes of the file system by others.
A run is a list of such events, one after the other.  What holds at the start and is kept by every
event holds after every run (`run_induction`); where events are restricted, the restriction is
one on an event in the state in which it happens (`Throughout`).
-/

namespace DownloadCache

set_option autoImplicit false

/-- Something that happens to a site. -/
inductive Event where
  | add (now : Instant) (key : String) (staging : Path) (size : UInt64)
      (validators : Validators)
  | touch (now : Instant) (key : String)
  | removeKey (key : String)
  | removeUntracked (path : Path)
  | sweep
  /-- Others change the file system. -/
  | outside (files : FileSystem)

namespace Site

/-- The site after an event. -/
def after (site : Site) : Event → Site
  | .add now key staging size validators => (site.add now key staging size validators).2
  | .touch now key => site.touch now key
  | .removeKey key => (site.removeKey key).2
  | .removeUntracked path => (site.removeUntracked path).2
  | .sweep => site.sweep.2
  | .outside files => { site with files }

/-- The site after a run. -/
def run (site : Site) (events : List Event) : Site :=
  events.foldl after site

/-- Whether every event of a run is allowed in the state in which it happens. -/
def Throughout (allowed : Site → Event → Prop) : Site → List Event → Prop
  | _, [] => True
  | site, event :: rest => allowed site event ∧ Throughout allowed (site.after event) rest

@[simp]
theorem run_nil (site : Site) : site.run [] = site := rfl

@[simp]
theorem run_cons (site : Site) (event : Event) (rest : List Event) :
    site.run (event :: rest) = (site.after event).run rest := rfl

theorem run_append (site : Site) (first second : List Event) :
    site.run (first ++ second) = (site.run first).run second :=
  List.foldl_append

/-- What holds at the start and is kept by every event holds after every run. -/
theorem run_induction (holds : Site → Prop) {site : Site} (start : holds site)
    (step : ∀ site event, holds site → holds (site.after event)) (events : List Event) :
    holds (site.run events) := by
  induction events generalizing site with
  | nil => exact start
  | cons event rest ih => exact ih (step site event start)

end Site

end DownloadCache
