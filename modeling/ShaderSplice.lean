import ShaderSplice.Main
import ShaderSplice.Proofs.Comment
import ShaderSplice.Proofs.Directive
import ShaderSplice.Proofs.SourceLine
import ShaderSplice.Proofs.Expansion
import ShaderSplice.Proofs.IncludeGraph
import ShaderSplice.Proofs.Registry
import ShaderSplice.Proofs.Layout
import ShaderSplice.Proofs.Synchronisation
import ShaderSplice.Proofs.Numbering
import ShaderSplice.Proofs.Provenance
import ShaderSplice.Proofs.Modes
import ShaderSplice.Proofs.Leftover
import ShaderSplice.Proofs.Visit
import ShaderSplice.Proofs.Course
import ShaderSplice.Proofs.Failure
import ShaderSplice.Proofs.Registration
import ShaderSplice.Proofs.Replay
import ShaderSplice.Proofs.OnePass
import ShaderSplice.Proofs.Marker
import ShaderSplice.Proofs.Association
import ShaderSplice.Proofs.Path
import ShaderSplice.Proofs.FileTree
import ShaderSplice.Proofs.Text.Utf8
import ShaderSplice.Proofs.Text.Quoted
import ShaderSplice.Proofs.Lookup
import ShaderSplice.Proofs.LookupFile
import ShaderSplice.Proofs.Session.Calls
import ShaderSplice.Proofs.Session.Report
import ShaderSplice.Proofs.Session.Build
import ShaderSplice.Proofs.Session.Ids
import ShaderSplice.Proofs.Session.Optimization
import ShaderSplice.Proofs.Stripping
import ShaderSplice.Proofs.CommentAutomaton
import ShaderSplice.Proofs.Termination
import ShaderSplice.Proofs.NormalForm
import ShaderSplice.Proofs.Relevance
import ShaderSplice.Proofs.DirectiveGrammar
import ShaderSplice.Proofs.Text.Field
import ShaderSplice.Proofs.VersionGrammar
import ShaderSplice.Proofs.Word
import ShaderSplice.Proofs.LineEnd
import ShaderSplice.Proofs.MarkerCount
import ShaderSplice.Proofs.RegistryIndex
import ShaderSplice.Proofs.Session.Interleaving
