import TableQuery.Text.CharClass
import TableQuery.Text.Blank
import TableQuery.Text.Letter
import TableQuery.Text.Quoted
import TableQuery.Text.CaseFold
import TableQuery.Number.Notation
import TableQuery.Value.Reading
import TableQuery.Value.Number
import TableQuery.Json.Reader
import TableQuery.Json.Writer
import TableQuery.Table.Sort
import TableQuery.Table.Page
import TableQuery.Filter.Selection
import TableQuery.Csv.Reader
import TableQuery.Csv.Writer
import TableQuery.Table.Stored
import TableQuery.Filter.Stored
import TableQuery.Policy.Stored
import TableQuery.Main
import TableQuery.Proofs.Filter.Faults
import TableQuery.Proofs.Filter.RoundTrip
import TableQuery.Proofs.Session.History
import TableQuery.Proofs.Session.Views
import TableQuery.Proofs.Session.SortedViews
import TableQuery.Proofs.Command.Files
import TableQuery.Proofs.Command.Arguments
import TableQuery.Proofs.Csv.RoundTrip
import TableQuery.Proofs.Table.Inference
import TableQuery.Proofs.Table.Reload
import TableQuery.Proofs.Filter.Folding
import TableQuery.Proofs.Number.Order
import TableQuery.Proofs.Filter.Selection
import TableQuery.Proofs.Filter.Integers
import TableQuery.Proofs.Filter.Enclosure
import TableQuery.Proofs.Filter.Conjunction
import TableQuery.Proofs.Filter.Dependence
import TableQuery.Proofs.Filter.Paths
import TableQuery.Proofs.Table.Sampling
import TableQuery.Proofs.Table.Sorting
import TableQuery.Proofs.Table.MixedKinds
import TableQuery.Proofs.Table.Widening
import TableQuery.Proofs.Number.Exact
import TableQuery.Proofs.Filter.Comparisons
import TableQuery.Proofs.Value.Reading
import TableQuery.Proofs.Filter.Layout
import TableQuery.Proofs.Filter.Joining
import TableQuery.Proofs.Filter.LexicalErrors
import TableQuery.Proofs.Filter.Prefixes
import TableQuery.Proofs.Filter.Limits
import TableQuery.Proofs.Filter.Coherence
import TableQuery.Proofs.Filter.Marks
import TableQuery.Proofs.Filter.Texts
import TableQuery.Proofs.Filter.Failures
import TableQuery.Proofs.Filter.Matching
import TableQuery.Proofs.Filter.Ranges
import TableQuery.Proofs.Filter.ComparedNumbers
import TableQuery.Proofs.Filter.Levels
import TableQuery.Proofs.Command.Messages
