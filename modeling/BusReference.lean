import BusReference.Main
import BusReference.Proofs.Php.Grammar.Files
import BusReference.Proofs.Printing.Completion
import BusReference.Proofs.Project.Failure
import BusReference.Proofs.Graph.Walk
import BusReference.Proofs.Php.Hierarchy.Methods
import BusReference.Proofs.Php.Hierarchy.Interfaces
import BusReference.Proofs.Definition.Collecting
import BusReference.Proofs.HandlerMap.Discovery
import BusReference.Proofs.Definition.Order
import BusReference.Proofs.Project.Order
import BusReference.Proofs.Project.Confinement
import BusReference.Proofs.Printing.Links
import BusReference.Proofs.Php.Grammar.Resolution
import BusReference.Proofs.Php.Requests
import BusReference.Proofs.Php.Lexeme.Segments
import BusReference.Proofs.Php.Position.Files
import BusReference.Proofs.Definition.ReturnTag
import BusReference.Proofs.Php.Lexeme.InlineText
import BusReference.Proofs.Php.Body.DocComments
import BusReference.Proofs.Php.Signature.DocComments
import BusReference.Proofs.Php.Grammar.FilesWithCode
import BusReference.Proofs.Php.Body.Mentions
import BusReference.Proofs.Definition.NullMembers
import BusReference.Proofs.Php.Joined.Merging
import BusReference.Proofs.Php.Default.Parameters
import BusReference.Proofs.Text.Trimming
import BusReference.Proofs.Php.Default.Literals
import BusReference.Proofs.DocComment.Noise
import BusReference.Proofs.DocComment.Summaries
import BusReference.Proofs.DocComment.LineEnds
import BusReference.Proofs.Php.Default.Strings
import BusReference.Proofs.Text.Hyphenation
import BusReference.Proofs.Php.Position.Lines
import BusReference.Proofs.DocComment.ParameterTags
import BusReference.Proofs.DocComment.ReturnTags
import BusReference.Proofs.Printing.Configuration
import BusReference.Proofs.Regex.Domains
import BusReference.Proofs.Template.Table
import BusReference.Proofs.Project.Scanning
import BusReference.Proofs.Definition.AbsoluteNames
