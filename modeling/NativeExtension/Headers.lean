/-!
# NativeExtension.Headers

**The header that every extension includes.** It defines the macro by which an extension
declares its entry point. The macro builds the entry point's symbol from
`ARTIFACT_NAME`, which the build description defines as the extension's name, so the
loader finds the symbol by the name alone (`entrySymbol`).
-/

namespace NativeExtension

def extensionHeaderLines : List String :=
  ["/*",
   " * extbuild extension entry point.",
   " *",
   " * Every extension defines its entry point once:",
   " *",
   " *   #include <extbuild/extension.h>",
   " *",
   " *   EXTBUILD_EXTENSION \x7b",
   " *     return 0;",
   " *   \x7d",
   " *",
   " * ARTIFACT_NAME is defined on the compiler command line by the generated",
   " * build description, so the exported symbol is extbuild_init_<name>. A",
   " * non-zero return value makes the load fail.",
   " */",
   "#ifndef EXTBUILD_EXTENSION_H",
   "#define EXTBUILD_EXTENSION_H",
   "",
   "#if defined(_WIN32)",
   "#define EXTBUILD_EXPORT __declspec(dllexport)",
   "#else",
   "#define EXTBUILD_EXPORT __attribute__((visibility(\"default\")))",
   "#endif",
   "",
   "#ifdef __cplusplus",
   "#define EXTBUILD_EXTERN_C extern \"C\"",
   "#else",
   "#define EXTBUILD_EXTERN_C",
   "#endif",
   "",
   "#define EXTBUILD_CONCAT_IMPL(a, b) a##b",
   "#define EXTBUILD_CONCAT(a, b) EXTBUILD_CONCAT_IMPL(a, b)",
   "",
   "#ifndef ARTIFACT_NAME",
   "#error \"ARTIFACT_NAME must be defined; build this file through extbuild\"",
   "#endif",
   "",
   "#define EXTBUILD_EXTENSION \\",
   "  EXTBUILD_EXTERN_C EXTBUILD_EXPORT int EXTBUILD_CONCAT(extbuild_init_, ARTIFACT_NAME)(void)",
   "",
   "#endif /* EXTBUILD_EXTENSION_H */"]

def extensionHeader : String :=
  String.join (extensionHeaderLines.map (· ++ "\n"))

/-- Where the header lies below an include directory. -/
def extensionHeaderPath : String := "extbuild/extension.h"

/-- The symbol of the entry point of the extension `name`. -/
def entrySymbol (name : String) : String := "extbuild_init_" ++ name

end NativeExtension
