import MermaidPress.Backend.Dummy
import MermaidPress.Backend.Scripted
import MermaidPress.Backend.StandIn
import MermaidPress.Main
import MermaidPress.Proofs.Convert.Reconverting
import MermaidPress.Proofs.Convert.Stopping
import MermaidPress.Proofs.Document.Replacing
import MermaidPress.Proofs.Render.Lifetimes
import MermaidPress.Proofs.Convert.Checking
import MermaidPress.Proofs.Convert.Parts
import MermaidPress.Proofs.CommandLine.Cleanup
import MermaidPress.Proofs.Config.Soundness
import MermaidPress.Proofs.Document.CodeBlocks
import MermaidPress.Proofs.Convert.Settling
import MermaidPress.Proofs.Diagram.Leftovers
import MermaidPress.Proofs.Path.Normal
import MermaidPress.Proofs.Path.Reference
import MermaidPress.Proofs.Convert.Fitting
import MermaidPress.Proofs.Convert.Reporting
import MermaidPress.Proofs.Render.Polling
import MermaidPress.Proofs.Render.Markup
import MermaidPress.Proofs.Config.Agreement
import MermaidPress.Proofs.Render.Forwarding
import MermaidPress.Proofs.Convert.Separation
import MermaidPress.Proofs.Config.Isolation
import MermaidPress.Proofs.Config.Discovery
import MermaidPress.Proofs.Render.Trials
