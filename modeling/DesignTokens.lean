import DesignTokens.Lint.Reporter
import DesignTokens.Main
import DesignTokens.Proofs.Jsx.Braces
import DesignTokens.Proofs.Jsx.Enclosed
import DesignTokens.Proofs.Jsx.RoundTrip
import DesignTokens.Proofs.Jsx.Scan
import DesignTokens.Proofs.Lint.Isolation
import DesignTokens.Proofs.Lint.Source
import DesignTokens.Proofs.Script.Parse
import DesignTokens.Proofs.Script.RoundTrip
import DesignTokens.Proofs.Script.Alike
import DesignTokens.Proofs.Script.Chain
import DesignTokens.Proofs.Text.Blank
import DesignTokens.Proofs.Text.Location
import DesignTokens.Proofs.Text.Words
import DesignTokens.Recipe.Button
import DesignTokens.Recipe.Card
import DesignTokens.Proofs.ClassName.Normal
import DesignTokens.Proofs.ClassName.Rendered
import DesignTokens.Proofs.Lint.Options
import DesignTokens.Proofs.Lint.Override
import DesignTokens.Proofs.Plan.Css
import DesignTokens.Proofs.Policy.Suggestion
import DesignTokens.Proofs.Plan.Names
import DesignTokens.Proofs.Plan.Keys
import DesignTokens.Proofs.Recipe.Verdict
import DesignTokens.Proofs.Project.Load
import DesignTokens.Proofs.Project.Sum
import DesignTokens.Proofs.Cli.Files
import DesignTokens.Proofs.Path.Glob
import DesignTokens.Proofs.Path.Leading
import DesignTokens.Proofs.Plan.Grammar
import DesignTokens.Proofs.Policy.Classification
import DesignTokens.Proofs.Policy.Placement
import DesignTokens.Proofs.Script.Break
import DesignTokens.Proofs.Script.Surrounded
import DesignTokens.Proofs.Script.Wrapped
import DesignTokens.Proofs.Jsx.WellPlaced
import DesignTokens.Proofs.Lint.Format
import DesignTokens.Proofs.Lint.Message
import DesignTokens.Proofs.Script.Tiling
import DesignTokens.Proofs.Text.Line
import DesignTokens.Proofs.Jsx.Skip
import DesignTokens.Proofs.Lint.Compose
import DesignTokens.Proofs.Script.Template
import DesignTokens.Proofs.Script.Closing
import DesignTokens.Proofs.Script.Cursor
import DesignTokens.Proofs.Jsx.Bounds
import DesignTokens.Proofs.Cli.Verdict
import DesignTokens.Proofs.Cli.Verdict
