/-!
# NativeExtension.Toolchain.Version

**Versions of two numbers**, ordered by the major one first and then by the minor one.
-/

namespace NativeExtension

/-- A version: its major and its minor number. -/
structure Version where
  major : Nat
  minor : Nat
deriving DecidableEq, Repr, Inhabited

namespace Version

/-- Is `a` no later than `b`? -/
def le (a b : Version) : Bool :=
  a.major < b.major || (a.major == b.major && a.minor ≤ b.minor)

def text (v : Version) : String := toString v.major ++ "." ++ toString v.minor

theorem le_refl (a : Version) : a.le a = true := by simp [le]

theorem le_trans {a b c : Version} (h : a.le b = true) (h' : b.le c = true) :
    a.le c = true := by
  simp [le] at *; omega

theorem le_total (a b : Version) : a.le b = true ∨ b.le a = true := by
  simp [le]; omega

theorem le_antisymm {a b : Version} (h : a.le b = true) (h' : b.le a = true) : a = b := by
  cases a; cases b; simp [le] at *; omega

end Version

end NativeExtension
