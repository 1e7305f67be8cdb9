import AnnotationDefaults.Main
import AnnotationDefaults.Proofs.Builder.Rendering
import AnnotationDefaults.Proofs.ClassFile.Truncation
import AnnotationDefaults.Proofs.CommandLine.DumpForms
import AnnotationDefaults.Proofs.CommandLine.Failure
import AnnotationDefaults.Proofs.Comparison.Determination
import AnnotationDefaults.Proofs.Comparison.Differences
import AnnotationDefaults.Proofs.Comparison.Reflexivity
import AnnotationDefaults.Proofs.Comparison.Reordering
import AnnotationDefaults.Proofs.Report.Coverage
import AnnotationDefaults.Proofs.Text.Forms
import AnnotationDefaults.Proofs.Comparison.Containment
import AnnotationDefaults.Proofs.Text.Surrogates
import AnnotationDefaults.Proofs.Comparison.TextContent
import AnnotationDefaults.Proofs.ConstantPool.Layout
import AnnotationDefaults.Proofs.Expectation.NumberTokens
import AnnotationDefaults.Proofs.Comparison.Mismatches
import AnnotationDefaults.Proofs.Comparison.TagChecks
import AnnotationDefaults.Proofs.Element.Visiting
import AnnotationDefaults.Element.Equality
