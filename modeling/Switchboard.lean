import Switchboard.Catalogue
import Switchboard.Error
import Switchboard.Main
import Switchboard.Template.Describe
import Switchboard.Proofs.Template.Compiled
import Switchboard.Proofs.Mapper.Dispatch
import Switchboard.Proofs.Permission.History
import Switchboard.Proofs.Permission.Inheritance
import Switchboard.Proofs.Permission.Granting
import Switchboard.Proofs.Permission.Parent
import Switchboard.Proofs.Template.Recognition
import Switchboard.Proofs.Mapper.Registry
import Switchboard.Proofs.Template.Choices
import Switchboard.Proofs.Template.Requirement
import Switchboard.Proofs.Template.Groups
import Switchboard.Proofs.Pattern.Captures
import Switchboard.Proofs.Cli.Check
import Switchboard.Proofs.Template.Remainder
import Switchboard.Proofs.Pattern.References
import Switchboard.Proofs.Pattern.Nesting
import Switchboard.Proofs.Pattern.Splice
import Switchboard.Proofs.Template.Spliced
import Switchboard.Proofs.Template.Rejection
import Switchboard.Proofs.Template.WholeMessage
import Switchboard.Proofs.Template.Settled
import Switchboard.Proofs.Template.Readings
import Switchboard.Proofs.Template.Binding
import Switchboard.Proofs.Template.SingleLine
import Switchboard.Proofs.Template.Grammar
import Switchboard.Proofs.Template.Joining
import Switchboard.Proofs.Text.MultiWord
import Switchboard.Proofs.Template.Blanks
import Switchboard.Proofs.Template.Lexemes
import Switchboard.Proofs.Mapper.Order
import Switchboard.Proofs.Cli.Imports
import Switchboard.Proofs.Pattern.Captureless
import Switchboard.Proofs.Requirement.Acceptance
import Switchboard.Proofs.Mapper.Fallback
