import TokenLint.Glob.Match

/-!
# Sets of paths given by globs
-/
namespace TokenLint

/-- Globs that ignore case. -/
structure PathMatcher where
  globs : List Glob := []

namespace PathMatcher

/-- Compiles globs; patterns that are none are left out. -/
def ofPatterns (patterns : List String) : PathMatcher :=
  ⟨patterns.filterMap fun p => (Glob.compile p true).toOption⟩

/-- Whether a path that is not empty matches one of the globs. -/
def contains (m : PathMatcher) (path : String) : Bool :=
  !path.isEmpty && m.globs.any (·.accepts path)

end PathMatcher
end TokenLint
