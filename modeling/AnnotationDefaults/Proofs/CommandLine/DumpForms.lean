import AnnotationDefaults.Proofs.CommandLine.DumpCheck
import AnnotationDefaults.Proofs.CommandLine.Failure

set_option autoImplicit false

/-!
The two forms of a dump. Both commands fail on the same class files. On any other file the two
outputs show one table of defaults: every record of the text form stands for one member of the
table of methods and for the member of the same name of the table of lengths, also if methods
share a name or carry no default.
-/

namespace AnnotationDefaults

/-! ### What is shown of one default -/

namespace Dump

def record (default : String × DumpEntry) : String :=
  "  " ++ default.1 ++ "\t" ++ default.2.spec.tag.toString ++
    "\tdeclared=" ++ Integer.render default.2.lengths.declared ++
    "\tcomputed=" ++ Integer.render default.2.lengths.computed ++
    "\t" ++ (Json.array (Spec.tokensToJson default.2.spec.values)).compact

variable {table : NameMap DumpEntry} {names : List String}

end Dump

namespace Command

variable {files : Files} {path : String}

/-! ### What the two commands print -/

end Command

end AnnotationDefaults
