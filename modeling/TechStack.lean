import TechStack.Journal.Results
import TechStack.Journal.Preservation
import TechStack.Layout.Refusals
import TechStack.Telemetry.Custody
import TechStack.Telemetry.Delivery
import TechStack.Workflow.Budget
import TechStack.Workflow.Suspension
import TechStack.Jobs.Target
import TechStack.Jobs.Attempts
import TechStack.GuardReach.Routes
import TechStack.Ports.Lifecycle
import TechStack.Ports.Admission
import TechStack.GuardRelease.Revocation
import TechStack.GuardExec.Switch
import TechStack.ProviderControl.Heartbeat
import TechStack.ProviderControl.SoleHolder
import TechStack.ServerRegistry.Availability
import TechStack.VmLeases.Patch
import TechStack.Household.Projection
import TechStack.Household.Usernames
import TechStack.Layout.Verdicts
import TechStack.Notifications.Outbox
import TechStack.Placement.Order
import TechStack.ServerMaintenance.LateApply
