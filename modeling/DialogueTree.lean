import DialogueTree.Channel.Script
import DialogueTree.FileTree.Building
import DialogueTree.Main
import DialogueTree.Proofs.Include.Entries
import DialogueTree.Proofs.Include.Resolving
import DialogueTree.Proofs.Include.PreOrder
import DialogueTree.Proofs.Include.Graph
import DialogueTree.Proofs.Include.Assembly
import DialogueTree.Proofs.Include.Settling
import DialogueTree.Proofs.Include.FirstDefect
import DialogueTree.Proofs.Walk.Alike
import DialogueTree.Proofs.Walk.Transition
import DialogueTree.Proofs.Node.Directives
import DialogueTree.Proofs.Walk.Failure
import DialogueTree.Proofs.Walk.Output
import DialogueTree.Proofs.Text.Line
import DialogueTree.Proofs.Text.Words
import DialogueTree.Proofs.Directive.Grammar
import DialogueTree.Proofs.Walk.Conversation
import DialogueTree.Proofs.Walk.Decided
import DialogueTree.Proofs.Walk.Bounded
import DialogueTree.Proofs.Channel.Remembered
import DialogueTree.Proofs.Include.Origin
import DialogueTree.Proofs.Walk.Errors
import DialogueTree.Proofs.Walk.Abreast
import DialogueTree.Proofs.Walk.Locality
import DialogueTree.Proofs.Walk.Log
import DialogueTree.Proofs.Walk.Truncation
import DialogueTree.Proofs.Walk.Authored
import DialogueTree.Proofs.Include.Independence
import DialogueTree.Proofs.FileTree.Path
import DialogueTree.Proofs.FileTree.Aliases
import DialogueTree.Proofs.FileTree.Resemblance
import DialogueTree.Proofs.Include.Correspondence
import DialogueTree.Proofs.Include.Parametricity
import DialogueTree.Proofs.Include.Expansion
import DialogueTree.Proofs.Include.Spelling
import DialogueTree.Proofs.Node.Reading
import DialogueTree.Proofs.Node.Grammar
import DialogueTree.Proofs.Node.Fields
import DialogueTree.Proofs.Walk.Reads
import DialogueTree.Proofs.Channel.Input
import DialogueTree.Proofs.Session.Arguments
import DialogueTree.Proofs.Session.Composition
import DialogueTree.Proofs.Walk.Positional
import DialogueTree.Proofs.Include.Opened
