import NativeExtension.Path.Basic

/-!
# NativeExtension.Workspace

**Where the files of a build lie.** An extension is built in a directory of its own, the
workspace, which holds the build description beside the objects and the library.
-/

namespace NativeExtension

def buildFile (workspace : Path) : Path := workspace.joinText "build.ninja"

/-- The directory of all workspaces, below the one for temporary files. -/
def workspacesIn (temporary : Path) : Path := temporary.joinText "extbuild_extensions"

/-- The workspace of the extension `name` among those in `root`. -/
def workspaceOf (root : Path) (name : String) : Path := root.joinText name

/-- Where the bundled headers lie among the workspaces in `root`. -/
def bundledDir (root : Path) : Path := root.joinText "include"

end NativeExtension
