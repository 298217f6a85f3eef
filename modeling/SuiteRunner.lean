import SuiteRunner.Discovery
import SuiteRunner.Glob.Loop
import SuiteRunner.Run
import SuiteRunner.Config
import SuiteRunner.Cli.Parse
import SuiteRunner.Cli.Run
import SuiteRunner.Watch
import SuiteRunner.Launch
import SuiteRunner.Main
import SuiteRunner.Proofs.Verdict
import SuiteRunner.Proofs.RunLoop
import SuiteRunner.Proofs.Glob
import SuiteRunner.Proofs.Split
import SuiteRunner.Proofs.PathText
import SuiteRunner.Proofs.Pattern
import SuiteRunner.Proofs.Discovery
import SuiteRunner.Proofs.Narration
import SuiteRunner.Proofs.Searched
import SuiteRunner.Proofs.WriteFailure
import SuiteRunner.Proofs.Refusal
import SuiteRunner.Proofs.LiteralLookup
import SuiteRunner.Proofs.Settings
import SuiteRunner.Proofs.GroupKill
import SuiteRunner.Proofs.MatchLoop
